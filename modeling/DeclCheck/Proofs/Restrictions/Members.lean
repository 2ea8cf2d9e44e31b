import DeclCheck.Proofs.Naming.Catalogue

/-!
# Members of a group

A type is a member of a group if the lattice has a way from it up to the group. A value that conforms to a member is
a member itself, with three exceptions: a nullable value conforms to `Nil`, every value conforms to `Any`, and a
written name stands for several heads at once.
-/

namespace DeclCheck

/-! ## Equality with types that take no arguments -/

namespace Ty

theorem args_eq_nil_of_equals {ty other : Ty} (same : ty.equals other = true) (none : other.args = []) :
    ty.args = [] := by
  cases ty with
  | atom shape nullable => rfl
  | app ctor args nullable =>
    simp only [equals, none, allEqual_nil_right, Bool.and_eq_true, List.isEmpty_iff] at same
    exact same.2

theorem equates_of_equals {ty other : Ty} (same : ty.equals other = true) : ty.head.equates other.head = true := by
  cases ty with
  | atom shape nullable => exact (Bool.and_eq_true_iff.mp same).1
  | app ctor args nullable => exact (Bool.and_eq_true_iff.mp same).1

theorem equals_of_equates {ty other : Ty} (heads : ty.head.equates other.head = true) (none : ty.args = [])
    (otherNone : other.args = []) : ty.equals other = true := by
  cases ty with
  | atom shape nullable =>
    simp only [equals, otherNone, List.isEmpty_nil, Bool.and_true]
    exact heads
  | app ctor args nullable =>
    obtain rfl : args = [] := none
    simp only [equals, otherNone, allEqual, Bool.and_true]
    exact heads

theorem isGeneric_iff {ty : Ty} : ty.isGeneric = true ↔ ∃ name, ty.head = .generic name := by
  cases ty with
  | atom shape nullable => cases shape <;> simp [isGeneric, head, Atom.head]
  | app ctor args nullable => cases ctor <;> simp [isGeneric, head, Ctor.head]

end Ty

theorem Head.equates_iff_agrees {first second : Head} (one : first.isMeant = true) :
    first.equates second = true ↔ first.agrees second = true := by
  cases first with
  | generic | unresolved => cases one
  | void | enum | group | builtin | struct => cases second <;> simp [equates, agrees]

/-- Apart from placeholders, types with resolved heads are equal only if the heads are. -/
theorem Ty.head_eq_of_equals {ty other : Ty} (shape : ty.head.isMeant = true) (own : other.head.isResolved = true)
    (same : ty.equals other = true) : ty.head = other.head :=
  (Head.agrees_iff (Head.isResolved_of_isMeant shape) own).mp
    ((Head.equates_iff_agrees shape).mp (Ty.equates_of_equals same))

namespace Lattice

/-! ## Membership -/

/-- **Whether a type is a member of a group**, or the group itself. -/
def HasMember (lattice : Lattice) (group : String) (ty : Ty) : Prop :=
  (lattice.distance ty (.group group)).isSome = true

/-- Whether a lattice has only heads that a name can mean. -/
def Meant (lattice : Lattice) : Prop := ∀ head ∈ lattice.types.map Ty.head, head.isMeant = true

variable {lattice after : Lattice} {group : String} {ty param actual : Ty}

theorem Meant.resolved (meant : lattice.Meant) : lattice.Resolved :=
  fun _ mem => Head.isResolved_of_isMeant (meant _ (List.mem_map_of_mem mem))

/-- A restriction may be written nullable. That changes nothing. -/
theorem hasMember_iff_distance (nullable : Bool) :
    lattice.HasMember group ty ↔ (lattice.distance ty (.atom (.group group) nullable)).isSome = true := by
  have same := lattice.distance_withNullable ty (.group group) ty.nullable nullable
  have own : ty.withNullable ty.nullable = ty := by cases ty <;> rfl
  rw [own] at same
  rw [HasMember, ← same]
  rfl

/-- **A member is the group itself, or there is a walk from its head up to the group.** -/
theorem hasMember_iff (resolved : lattice.Resolved) :
    lattice.HasMember group ty ↔
      ty.equals (.group group) = true ∨ ∃ length, Walk lattice.Hop (length + 1) ty.head (.group group) := by
  have absent := distance_eq_none_iff resolved ty (.group group)
  have ends : (∀ length, length ∉ lattice.meetings ty (.group group)) ↔
      ∀ length, ¬ Walk lattice.Hop (length + 1) ty.head (.group group) := by
    constructor
    · intro none length walk
      exact none (length + 1) ((mem_meetings_iff resolved rfl).mpr ⟨Nat.succ_pos _, walk⟩)
    · intro none length meeting
      obtain ⟨positive, walk⟩ := (mem_meetings_iff resolved rfl).mp meeting
      obtain ⟨shorter, rfl⟩ := Nat.exists_eq_succ_of_ne_zero (Nat.ne_of_gt positive)
      exact none shorter walk
  rw [ends] at absent
  rw [HasMember, ← Option.ne_none_iff_isSome, ne_eq, absent, not_and_or, not_not]
  simp only [not_forall, not_not]

/-- A hop goes up from a written name, or from what a name can mean. -/
theorem Hop.isMeant {low high : Head} (hop : lattice.Hop low high) (meant : lattice.Meant)
    (own : low.isResolved = true) : low.isMeant = true := by
  obtain ⟨node, mem, shares, -⟩ := hop
  rw [← (Head.agrees_iff (meant.resolved _ (List.mem_map_of_mem mem)) own).mp shares]
  exact meant _ (List.mem_map_of_mem (List.mem_map_of_mem mem))

/-- No placeholder is a member: none stands in the lattice, and none equals a group. -/
theorem HasMember.isGeneric_eq_false (meant : lattice.Meant) (member : lattice.HasMember group ty) :
    ty.isGeneric = false := by
  cases ty with
  | app ctor args nullable => rfl
  | atom shape nullable =>
    cases shape with
    | void | enum | group => rfl
    | generic name location =>
      rcases (hasMember_iff meant.resolved).mp member with same | ⟨length, walk⟩
      · cases same
      · obtain ⟨_, hop, -⟩ := Walk.succ_iff_first.mp walk
        cases hop.isMeant meant rfl

/-- The head of a member is a written name, or what a name can mean. -/
theorem HasMember.isMeant_head (meant : lattice.Meant) (member : lattice.HasMember group ty)
    (own : ty.head.isResolved = true) : ty.head.isMeant = true := by
  have plain := member.isGeneric_eq_false meant
  cases ty with
  | atom shape nullable =>
    cases shape with
    | generic => cases plain
    | void | enum | group => rfl
  | app ctor args nullable =>
    cases ctor with
    | unresolved => cases own
    | builtin | struct => rfl

/-- Membership depends on the head alone, and on whether there are arguments. -/
theorem HasMember.of_head (resolved : lattice.Resolved) (member : lattice.HasMember group ty)
    (head : actual.head = ty.head) (args : ty.args = [] → actual.args = []) : lattice.HasMember group actual := by
  rcases (hasMember_iff resolved).mp member with same | walk
  · refine (hasMember_iff resolved).mpr (Or.inl (Ty.equals_of_equates ?_ ?_ rfl))
    · rw [head]
      exact Ty.equates_of_equals same
    · exact args (Ty.args_eq_nil_of_equals same rfl)
  · rw [← head] at walk
    exact (hasMember_iff resolved).mpr (Or.inr walk)

/-- Members stay members as the lattice grows. -/
theorem HasMember.of_grown (resolved : lattice.Resolved) (resolvedAfter : after.Resolved)
    (grown : lattice.nodes <+: after.nodes) (member : lattice.HasMember group ty) : after.HasMember group ty := by
  obtain ⟨length, found⟩ := Option.isSome_iff_exists.mp member
  obtain ⟨shorter, -, reached⟩ := distance_of_grown resolved resolvedAfter grown found
  exact Option.isSome_iff_exists.mpr ⟨shorter, reached⟩

/-! ## What conforms to a member -/

/-- What has a way up to a type equals it, or a walk leads from its head to one that agrees with the type's. -/
theorem exists_walk_of_distance (resolved : lattice.Resolved)
    (below : (lattice.distance actual param).isSome = true) :
    actual.equals param = true ∨ ∃ length high, Walk lattice.Hop (length + 1) actual.head high ∧
      high ∈ lattice.types.map Ty.head ∧ high.agrees param.head = true := by
  by_cases same : actual.equals param = true
  · exact Or.inl same
  · obtain ⟨length, found⟩ := Option.isSome_iff_exists.mp below
    have least := (distance_eq_some_iff resolved actual param length).mp found
    rw [if_neg same] at least
    obtain ⟨positive, high, walk, shares⟩ := least.1
    obtain ⟨shorter, rfl⟩ := Nat.exists_eq_succ_of_ne_zero (Nat.ne_of_gt positive)
    obtain ⟨_, -, hop⟩ := Walk.succ_iff.mp walk
    exact Or.inr ⟨shorter, high, walk, hop.mem, shares⟩

/-- **What equals a member with a resolved head is a member.** -/
theorem HasMember.of_equals (meant : lattice.Meant) (member : lattice.HasMember group param)
    (own : param.head.isResolved = true) (same : actual.equals param = true) : lattice.HasMember group actual := by
  have shape := member.isMeant_head meant own
  have heads := Ty.equates_of_equals same
  rcases (hasMember_iff meant.resolved).mp member with equal | ⟨length, walk⟩
  · refine (hasMember_iff meant.resolved).mpr (Or.inl (Ty.equals_of_equates ?_ ?_ rfl))
    · rw [Ty.head_eq_of_equals shape rfl equal] at heads
      exact heads
    · exact Ty.args_eq_nil_of_equals same (Ty.args_eq_nil_of_equals equal rfl)
  · have agrees : actual.head.agrees param.head = true := by
      rw [Head.agrees_comm]
      rw [Head.equates_comm] at heads
      exact (Head.equates_iff_agrees shape).mp heads
    exact (hasMember_iff meant.resolved).mpr (Or.inr ⟨length, walk_of_agrees meant.resolved own agrees walk⟩)

/-- **What has a way up to a member with a resolved head is a member.** -/
theorem HasMember.of_distance (meant : lattice.Meant) (member : lattice.HasMember group param)
    (own : param.head.isResolved = true) (below : (lattice.distance actual param).isSome = true) :
    lattice.HasMember group actual := by
  rcases exists_walk_of_distance meant.resolved below with same | ⟨length, high, walk, listed, shares⟩
  · exact member.of_equals meant own same
  · obtain rfl := (Head.agrees_iff (Head.isResolved_of_isMeant (meant high listed)) own).mp shares
    refine (hasMember_iff meant.resolved).mpr (Or.inr ?_)
    rcases (hasMember_iff meant.resolved).mp member with equal | ⟨more, onward⟩
    · rw [Ty.head_eq_of_equals (member.isMeant_head meant own) rfl equal] at walk
      exact ⟨length, walk⟩
    · exact ⟨length + 1 + more, walk.trans onward⟩

/-! ## Arguments -/

/-- **Why an argument may stand at a parameter that belongs to a restricted placeholder.** It is a member of the
group, as the restriction asks. Or a placeholder stands where the parameter is one too: what restricts the
placeholder of the argument does not matter. Or the parameter has been given a member for a type, to which values
conform that are no members. -/
inductive Admits (lattice : Lattice) (group : String) (param actual : Ty) : Prop
  | member (own : lattice.HasMember group actual)
  | placeholder (declared : param.isGeneric = true) (given : actual.isGeneric = true)
  | atNil (inside : lattice.HasMember group param) (nil : param.isNil = true) (nullable : actual.nullable = true)
  | anything (inside : lattice.HasMember group param) (any : param.isAny = true)
  | written (inside : lattice.HasMember group param) (name : param.head.isResolved = false)

/-- What conforms to a placeholder is one. -/
theorem isGeneric_of_isSubtype (meant : lattice.Meant) (generic : param.isGeneric = true)
    (plain : param.nullable = false) (conforms : lattice.isSubtype actual param = true) :
    actual.isGeneric = true := by
  obtain ⟨name, head⟩ := Ty.isGeneric_iff.mp generic
  have apart : param.isAny = false ∧ param.isNil = false := by
    simp [Ty.isAny, Ty.isNil, head]
  have same : actual.equals param = true := by
    simp only [isSubtype, meetsAtNil, plain, apart, Bool.and_false, Bool.false_and, Bool.or_false,
      Bool.or_eq_true] at conforms
    rcases conforms with same | below
    · exact same
    · rcases exists_walk_of_distance meant.resolved below with same | ⟨_, high, -, listed, shares⟩
      · exact same
      · have shape := meant high listed
        rw [head] at shares
        rw [(Head.agrees_iff (Head.isResolved_of_isMeant shape) rfl).mp shares] at shape
        cases shape
  have heads := Ty.equates_of_equals same
  rw [head] at heads
  apply Ty.isGeneric_iff.mpr
  cases other : actual.head with
  | generic own => exact ⟨own, rfl⟩
  | void | enum | group | unresolved | builtin | struct =>
    rw [other] at heads
    cases heads

/-- **What conforms to a parameter is admitted there**, if the parameter is a placeholder or a member. -/
theorem admits_of_isSubtype (meant : lattice.Meant) (plain : param.nullable = false)
    (inside : param.isGeneric = true ∨ lattice.HasMember group param)
    (conforms : lattice.isSubtype actual param = true) : lattice.Admits group param actual := by
  rcases inside with generic | member
  · exact .placeholder generic (isGeneric_of_isSubtype meant generic plain conforms)
  · cases own : param.head.isResolved with
    | false => exact .written member own
    | true =>
      simp only [isSubtype, meetsAtNil, plain, Bool.and_false, Bool.false_or, Bool.or_eq_true,
        Bool.and_eq_true] at conforms
      rcases conforms with ((same | any) | ⟨nil, nullable⟩) | below
      · exact .member (member.of_equals meant own same)
      · exact .anything member any
      · exact .atNil member nil nullable
      · exact .member (member.of_distance meant own below)

end Lattice

theorem Session.Reachable.meant {session : Session} (reachable : session.Reachable) :
    session.symbols.types.lattice.Meant := reachable.catalogued.meant

end DeclCheck
