import DeclCheck.Proofs.Lattice.Walks

/-!
# Lattices as digraphs of heads

A lattice is made of a root by attaching types one after another. What it answers afterwards is said without
its nodes: by the attachments that succeeded, each an edge from the child's head to the parent's. Whether a
further attachment succeeds depends on the heads known so far, and a distance is the length of a shortest walk
along the edges. It does not matter which of several nodes of the parent's head a child was attached under.

Attachments with written names are excluded throughout. That a search for a distance ends is not said: a distance that
no walk has counts as none, also where the search goes on for ever.
-/

namespace DeclCheck

namespace Lattice

/-! ## Attaching types one after another -/

/-- A type to be attached, and the type to attach it under. -/
structure Attachment where
  child : Ty
  parent : Ty
  deriving Repr

/-- Whether neither head of an attachment is a written name. -/
def Attachment.isResolved (request : Attachment) : Bool :=
  request.child.head.isResolved && request.parent.head.isResolved

/-- The lattice after an attachment. One that fails leaves the lattice as it is. -/
def attach (lattice : Lattice) (request : Attachment) : Lattice :=
  lattice.insert request.child request.parent

/-- The lattice after attachments one after another. -/
def attachAll (lattice : Lattice) (requests : List Attachment) : Lattice := requests.foldl attach lattice

/-- The attachments that succeed when they are made one after another. -/
def successes (lattice : Lattice) : List Attachment → List Attachment
  | [] => []
  | request :: rest =>
    if (lattice.insert? request.child request.parent).isSome then
      request :: (lattice.attach request).successes rest
    else lattice.successes rest

/-- **Whether an attachment leads from one head to another.** -/
def Links (attached : List Attachment) (low high : Head) : Prop :=
  ∃ request ∈ attached, request.child.head = low ∧ request.parent.head = high

/-- What a lattice begins with: a root alone, or the builtin hierarchy. -/
inductive Beginning where
  | root (ty : Ty)
  | builtins

namespace Beginning

/-- The lattice at the beginning. -/
def lattice : Beginning → Lattice
  | root ty => ofRoot ty
  | builtins => .initial

/-- The root of the lattice. -/
def top : Beginning → Ty
  | root ty => ty
  | builtins => .any

/-- The attachments that the beginning is made by. -/
def attached : Beginning → List Attachment
  | root _ => []
  | builtins =>
    ⟨.builtin .number, .any⟩ :: ⟨.builtin .integer, .builtin .number⟩ ::
      plainBuiltins.map fun kind => ⟨.builtin kind, .any⟩

end Beginning

/-! ## One attachment -/

/-- An attachment succeeds exactly if the parent's head is known. -/
theorem isSome_insert? (lattice : Lattice) (child parent : Ty) :
    (lattice.insert? child parent).isSome = lattice.contains parent := by
  simp only [insert?, contains, Option.isSome_map, List.findIdx?_isSome]

/-- So after one that succeeded it is known. -/
theorem contains_of_insert? {lattice after : Lattice} {child parent : Ty}
    (inserted : lattice.insert? child parent = some after) : lattice.contains parent = true := by
  rw [← isSome_insert? lattice child, inserted, Option.isSome_some]

/-- Then there is a first type with that head. -/
theorem exists_first?_of_insert? {lattice after : Lattice} {child parent : Ty}
    (inserted : lattice.insert? child parent = some after) : ∃ found, lattice.first? parent = some found := by
  rw [← Option.isSome_iff_exists, ← contains_eq_isSome_first?]
  exact contains_of_insert? inserted

/-- An attachment that fails leaves the lattice as it is. -/
theorem insert_of_insert?_eq_none {lattice : Lattice} {child parent : Ty}
    (refused : lattice.insert? child parent = none) : lattice.insert child parent = lattice := by
  rw [insert, refused, Option.getD_none]

/-- One that succeeds leaves what it makes. -/
theorem insert_of_insert?_eq_some {lattice after : Lattice} {child parent : Ty}
    (inserted : lattice.insert? child parent = some after) : lattice.insert child parent = after := by
  rw [insert, inserted, Option.getD_some]

/-- Every head is that of some type. -/
theorem exists_head_eq (head : Head) : ∃ ty : Ty, ty.head = head := by
  cases head with
  | void => exact ⟨.void, rfl⟩
  | generic name => exact ⟨.generic name, rfl⟩
  | enum name => exact ⟨.enum name, rfl⟩
  | group name => exact ⟨.group name, rfl⟩
  | unresolved name => exact ⟨.app (.unresolved name .nowhere) [] false, rfl⟩
  | builtin kind => exact ⟨.builtin kind, rfl⟩
  | struct name => exact ⟨.struct name [], rfl⟩

/-- Among resolved types a head is known exactly if one of them has it. -/
theorem contains_iff {lattice : Lattice} (resolved : lattice.Resolved) {ty : Ty}
    (own : ty.head.isResolved = true) :
    lattice.contains ty = true ↔ ty.head ∈ lattice.types.map Ty.head := by
  simp only [contains, List.any_eq_true, types, List.map_map, List.mem_map]
  constructor
  · rintro ⟨node, mem, shares⟩
    have head := resolved node.ty (List.mem_map.mpr ⟨node, mem, rfl⟩)
    exact ⟨node, mem, (Head.agrees_iff head own).mp shares⟩
  · rintro ⟨node, mem, same⟩
    have head := resolved node.ty (List.mem_map.mpr ⟨node, mem, rfl⟩)
    exact ⟨node, mem, (Head.agrees_iff head own).mpr same⟩

section

variable {lattice after : Lattice} {child parent : Ty}

/-- An attachment that succeeds adds the child at the end. -/
theorem types_insert? (inserted : lattice.insert? child parent = some after) :
    after.types = lattice.types ++ [child.withNullable false] := by
  obtain ⟨position, -, rfl⟩ := Option.map_eq_some_iff.mp inserted
  simp only [types, List.map_append, List.map_cons, List.map_nil]

/-- Whether the attachment succeeds or not, no type but the child is new. -/
theorem types_insert_subset :
    ∀ ty ∈ (lattice.insert child parent).types, ty ∈ lattice.types ∨ ty = child.withNullable false := by
  intro ty mem
  cases inserted : lattice.insert? child parent with
  | none =>
    rw [insert_of_insert?_eq_none inserted] at mem
    exact Or.inl mem
  | some after =>
    rw [insert_of_insert?_eq_some inserted, types_insert? inserted] at mem
    exact (List.mem_append.mp mem).imp_right List.mem_singleton.mp

/-- Attaching a resolved type leaves all types resolved. -/
theorem Resolved.insert? (resolved : lattice.Resolved) (own : child.head.isResolved = true)
    (inserted : lattice.insert? child parent = some after) : after.Resolved := by
  intro ty mem
  rw [types_insert? inserted] at mem
  rcases List.mem_append.mp mem with old | new
  · exact resolved ty old
  · rw [List.mem_singleton.mp new, Ty.head_withNullable]
    exact own

/-- **An attachment adds one hop**, from the child's head to the parent's. -/
theorem hop_insert? (range : lattice.InRange) (resolved : lattice.Resolved)
    (under : parent.head.isResolved = true) (inserted : lattice.insert? child parent = some after)
    (low high : Head) :
    after.Hop low high ↔
      lattice.Hop low high ∨ (child.head.agrees low = true ∧ parent.head = high) := by
  obtain ⟨found, present⟩ := exists_first?_of_insert? inserted
  have same : found.head = parent.head := by
    obtain ⟨node, located, rfl⟩ := Option.map_eq_some_iff.mp present
    have mem : node.ty ∈ lattice.types := List.mem_map.mpr ⟨node, List.mem_of_find?_eq_some located, rfl⟩
    have shares : node.ty.head.agrees parent.head = true := by
      simpa [Ty.sameHead] using List.find?_some located
    exact (Head.agrees_iff (resolved node.ty mem) under).mp shares
  obtain ⟨ty, rfl⟩ := exists_head_eq low
  rw [← mem_heads_above, ← mem_heads_above, above_insert? range present inserted, List.map_append,
    List.mem_append]
  refine or_congr_right ?_
  unfold Ty.sameHead
  cases child.head.agrees ty.head with
  | false => simp
  | true => simp [same, eq_comm]

end

/-! ## A whole history -/

/-- **Whether a lattice is drawn by attachments under a root**: it knows the root's head and those of the
children, and it has the hops that the attachments lead along. -/
structure Drawn (top : Head) (attached : List Attachment) (lattice : Lattice) : Prop where
  range : lattice.InRange
  resolved : lattice.Resolved
  known : ∀ head, head ∈ lattice.types.map Ty.head ↔
    head = top ∨ ∃ request ∈ attached, request.child.head = head
  hops : ∀ low high, low.isResolved = true → (lattice.Hop low high ↔ Links attached low high)

/-- A root alone is drawn by no attachments. -/
theorem drawn_ofRoot {root : Ty} (own : root.head.isResolved = true) :
    Drawn root.head [] (ofRoot root) where
  range := by
    intro node mem position above
    rw [List.mem_singleton.mp mem] at above
    cases above
  resolved := by
    intro ty mem
    rw [List.mem_singleton.mp mem]
    exact own
  known := by
    intro head
    simp [ofRoot, types]
  hops := by
    intro low high _
    constructor
    · rintro ⟨node, mem, -, parent, found, -⟩
      rw [List.mem_singleton.mp mem] at found
      cases found
    · rintro ⟨request, mem, -⟩
      cases mem

/-- **An attachment that succeeds is drawn** after those before it. -/
theorem Drawn.insert? {top : Head} {attached : List Attachment} {lattice after : Lattice}
    (drawn : Drawn top attached lattice) {request : Attachment} (resolved : request.isResolved = true)
    (inserted : lattice.insert? request.child request.parent = some after) :
    Drawn top (attached ++ [request]) after := by
  obtain ⟨own, under⟩ : request.child.head.isResolved = true ∧ request.parent.head.isResolved = true := by
    simpa [Attachment.isResolved] using resolved
  obtain ⟨found, present⟩ := exists_first?_of_insert? inserted
  refine ⟨drawn.range.insert? present inserted, drawn.resolved.insert? own inserted, ?_, ?_⟩
  · intro head
    rw [types_insert? inserted, List.map_append, List.mem_append, drawn.known head]
    simp [or_assoc, or_and_right, exists_or, eq_comm]
  · intro low high lowResolved
    rw [hop_insert? drawn.range drawn.resolved under inserted, drawn.hops low high lowResolved,
      Head.agrees_iff own lowResolved]
    simp [Links, or_and_right, exists_or]

/-- **Attachments one after another draw a lattice by those of them that succeed.** -/
theorem Drawn.attachAll {top : Head} {attached : List Attachment} {lattice : Lattice}
    (drawn : Drawn top attached lattice) {requests : List Attachment}
    (resolved : ∀ request ∈ requests, request.isResolved = true) :
    Drawn top (attached ++ lattice.successes requests) (lattice.attachAll requests) := by
  induction requests generalizing attached lattice with
  | nil =>
    rw [successes, List.append_nil]
    exact drawn
  | cons request rest ih =>
    have own := resolved request List.mem_cons_self
    have later : ∀ other ∈ rest, other.isResolved = true :=
      fun other mem => resolved other (List.mem_cons_of_mem _ mem)
    rw [Lattice.attachAll, List.foldl_cons, ← Lattice.attachAll, successes]
    cases inserted : lattice.insert? request.child request.parent with
    | none =>
      have same : lattice.attach request = lattice := insert_of_insert?_eq_none inserted
      rw [same]
      simpa using ih drawn later
    | some after =>
      have grown : lattice.attach request = after := insert_of_insert?_eq_some inserted
      have next := ih (drawn.insert? own inserted) later
      rw [grown]
      simpa [List.append_assoc] using next

/-- Each beginning is drawn by what it was built from. -/
theorem Beginning.drawn (beginning : Beginning) (own : beginning.top.head.isResolved = true) :
    Drawn beginning.top.head beginning.attached beginning.lattice := by
  cases beginning with
  | root ty => exact drawn_ofRoot own
  | builtins =>
    have all : ∀ request ∈ builtins.attached, request.isResolved = true := by decide
    have root : Drawn Ty.any.head [] (ofRoot .any) := drawn_ofRoot rfl
    exact root.attachAll all

/-! ## What a drawn lattice answers -/

section

variable {top : Head} {attached : List Attachment} {lattice : Lattice} {child ancestor : Ty}

/-- An attachment succeeds exactly if its parent is the root or was attached. -/
theorem Drawn.isSome_insert?_iff (drawn : Drawn top attached lattice) (child : Ty) {parent : Ty}
    (resolved : parent.head.isResolved = true) :
    (lattice.insert? child parent).isSome = true ↔
      parent.head = top ∨ ∃ earlier ∈ attached, earlier.child.head = parent.head := by
  rw [isSome_insert?, contains_iff drawn.resolved resolved, drawn.known]

/-- The meetings of a drawn lattice are the walks along its attachments. -/
theorem Drawn.mem_meetings_iff (drawn : Drawn top attached lattice) (low : child.head.isResolved = true)
    (high : ancestor.head.isResolved = true) (length : Nat) :
    length ∈ lattice.meetings child ancestor ↔
      0 < length ∧ Walk (Links attached) length child.head ancestor.head := by
  rw [Lattice.mem_meetings_iff drawn.resolved high]
  refine and_congr_right fun _ => ⟨fun walk => ?_, fun walk => ?_⟩
  · obtain ⟨moved, -⟩ := walk.transfer
      (fun low _ resolved hop => ⟨(drawn.hops low _ resolved).mp hop, drawn.resolved.of_hop hop⟩) low
    exact moved
  · obtain ⟨moved, -⟩ := walk.transfer
      (fun low _ resolved link =>
        have hop := (drawn.hops low _ resolved).mpr link
        ⟨hop, drawn.resolved.of_hop hop⟩) low
    exact moved

/-- Only equal types are at no distance. -/
theorem distance_eq_zero_iff (resolved : lattice.Resolved) (child ancestor : Ty) :
    lattice.distance child ancestor = some 0 ↔ child.equals ancestor = true := by
  rw [distance_eq_some_iff resolved]
  by_cases same : child.equals ancestor = true
  · simp [same]
  · rw [if_neg same, iff_false_right same]
    intro least
    exact Nat.lt_irrefl 0 least.1.1

/-- **Other types are as far apart as the shortest way along attachments.** -/
theorem Drawn.distance_eq_some_iff (drawn : Drawn top attached lattice)
    (low : child.head.isResolved = true) (high : ancestor.head.isResolved = true)
    (different : child.equals ancestor = false) (length : Nat) :
    lattice.distance child ancestor = some length ↔
      IsLeast {length | 0 < length ∧ Walk (Links attached) length child.head ancestor.head} length := by
  have meetings : lattice.meetings child ancestor =
      {length | 0 < length ∧ Walk (Links attached) length child.head ancestor.head} := by
    ext length
    exact drawn.mem_meetings_iff low high length
  rw [Lattice.distance_eq_some_iff drawn.resolved, if_neg (Bool.eq_false_iff.mp different), meetings]

/-- They have no distance exactly if there is no such way. -/
theorem Drawn.distance_eq_none_iff (drawn : Drawn top attached lattice)
    (low : child.head.isResolved = true) (high : ancestor.head.isResolved = true)
    (different : child.equals ancestor = false) :
    lattice.distance child ancestor = none ↔
      ∀ length, 0 < length → ¬ Walk (Links attached) length child.head ancestor.head := by
  rw [Lattice.distance_eq_none_iff drawn.resolved, and_iff_right (Bool.eq_false_iff.mp different)]
  refine forall_congr' fun length => ?_
  rw [drawn.mem_meetings_iff low high, not_and]

end

/-! ## Other occurrences of a parent -/

/-- The heads of a node and of its parent. -/
def headsAt (lattice : Lattice) (node : LatticeNode) : Head × Option Head :=
  (node.ty.head, (lattice.parentOf node).map Ty.head)

/-- **Whether two lattices have the same heads at their nodes, each under a parent of the same head.** The
parents may be different nodes of that head. -/
def Rehung (other lattice : Lattice) : Prop :=
  other.nodes.map other.headsAt = lattice.nodes.map lattice.headsAt

/-- Hops are seen from the heads of nodes and of their parents. -/
theorem hop_iff_headsAt (lattice : Lattice) (low high : Head) :
    lattice.Hop low high ↔
      ∃ heads ∈ lattice.nodes.map lattice.headsAt, heads.1.agrees low = true ∧ heads.2 = some high := by
  simp only [Hop, headsAt, List.mem_map, exists_exists_and_eq_and, Option.map_eq_some_iff]

/-- Lattices with the same heads have resolved types together. -/
theorem Rehung.resolved {other lattice : Lattice} (rehung : other.Rehung lattice)
    (resolved : lattice.Resolved) : other.Resolved := by
  intro ty mem
  obtain ⟨node, listed, rfl⟩ := List.mem_map.mp mem
  have heads : other.headsAt node ∈ lattice.nodes.map lattice.headsAt := by
    rw [← rehung]
    exact List.mem_map.mpr ⟨node, listed, rfl⟩
  obtain ⟨twin, inside, same⟩ := List.mem_map.mp heads
  have head : twin.ty.head = node.ty.head := congrArg Prod.fst same
  rw [← head]
  exact resolved twin.ty (List.mem_map.mpr ⟨twin, inside, rfl⟩)

/-- **Distances do not tell the occurrences of a parent apart.** -/
theorem Rehung.distance_eq {other lattice : Lattice} (rehung : other.Rehung lattice)
    (resolved : lattice.Resolved) (child ancestor : Ty) :
    other.distance child ancestor = lattice.distance child ancestor := by
  have hops : other.Hop = lattice.Hop := by
    funext low high
    rw [eq_iff_iff, hop_iff_headsAt, hop_iff_headsAt, rehung]
  have meetings : other.meetings child ancestor = lattice.meetings child ancestor := by
    simp only [Lattice.meetings, hops]
  refine Option.ext fun length => ?_
  rw [Lattice.distance_eq_some_iff (rehung.resolved resolved), Lattice.distance_eq_some_iff resolved,
    meetings]

/-! ## Lattices and their digraphs -/

/-- **Whether a lattice answers by the digraph of its attachments.** -/
structure AnswersBy (lattice : Lattice) (top : Head) (attached : List Attachment) : Prop where
  /-- An attachment succeeds exactly under the root's head and the heads of children attached before. -/
  accepts : ∀ child parent : Ty, parent.head.isResolved = true →
    ((lattice.insert? child parent).isSome = true ↔
      parent.head = top ∨ ∃ earlier ∈ attached, earlier.child.head = parent.head)
  /-- An attachment that fails leaves the lattice as it is. -/
  refuses : ∀ child parent : Ty, lattice.insert? child parent = none →
    lattice.insert child parent = lattice
  /-- Equal types, and no others, are no hop apart. -/
  equal : ∀ child ancestor : Ty,
    lattice.distance child ancestor = some 0 ↔ child.equals ancestor = true
  /-- Otherwise a distance is the length of a shortest walk that is not empty. -/
  shortest : ∀ child ancestor : Ty, child.head.isResolved = true → ancestor.head.isResolved = true →
    child.equals ancestor = false → ∀ length,
      (lattice.distance child ancestor = some length ↔
        IsLeast {length | 0 < length ∧ Walk (Links attached) length child.head ancestor.head} length)
  /-- There is no distance exactly where there is no such walk. -/
  unreachable : ∀ child ancestor : Ty, child.head.isResolved = true → ancestor.head.isResolved = true →
    child.equals ancestor = false →
      (lattice.distance child ancestor = none ↔
        ∀ length, 0 < length → ¬ Walk (Links attached) length child.head ancestor.head)
  /-- It does not matter which node of a parent's head a child was attached under. -/
  occurrences : ∀ other : Lattice, other.Rehung lattice → ∀ child ancestor : Ty,
    other.distance child ancestor = lattice.distance child ancestor

/-- **A lattice answers by the digraph of the attachments that succeeded**, whatever attachments were tried. -/
theorem attachAll_answersBy (beginning : Beginning) (requests : List Attachment)
    (root : beginning.top.head.isResolved = true)
    (resolved : ∀ request ∈ requests, request.isResolved = true) :
    (beginning.lattice.attachAll requests).AnswersBy beginning.top.head
      (beginning.attached ++ beginning.lattice.successes requests) := by
  have drawn := (beginning.drawn root).attachAll resolved
  constructor
  · intro child parent under
    exact drawn.isSome_insert?_iff child under
  · intro child parent refused
    exact insert_of_insert?_eq_none refused
  · intro child ancestor
    exact distance_eq_zero_iff drawn.resolved child ancestor
  · intro child ancestor low high different
    exact drawn.distance_eq_some_iff low high different
  · intro child ancestor low high different
    exact drawn.distance_eq_none_iff low high different
  · intro other rehung
    exact rehung.distance_eq drawn.resolved

/-- A struct that is in a group of its own and in one that lies above another, and an attachment under a
name that is not known. -/
def shapes : List Attachment :=
  [⟨.group "Shape", .any⟩, ⟨.group "Solid", .group "Shape"⟩, ⟨.struct "Box" [], .builtin .struct⟩,
    ⟨.struct "Box" [], .group "Solid"⟩, ⟨.struct "Disc" [], .group "Flat"⟩,
    ⟨.struct "Box" [], .group "Shape"⟩]

/-- The answers of a lattice to attachments one of which fails. -/
theorem shapes_answersBy :
    (∀ request ∈ shapes, request.isResolved = true) ∧
      (Lattice.initial.attachAll shapes).AnswersBy Ty.any.head
        (Beginning.builtins.attached ++ Lattice.initial.successes shapes) := by
  have resolved : ∀ request ∈ shapes, request.isResolved = true := by decide
  exact ⟨resolved, attachAll_answersBy .builtins shapes rfl resolved⟩

example : (Lattice.initial.attachAll shapes).distance (.struct "Box" []) (.group "Shape") = some 1 := by
  decide

end Lattice

end DeclCheck
