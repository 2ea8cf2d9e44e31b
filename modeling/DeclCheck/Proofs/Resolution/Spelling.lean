import DeclCheck.Proofs.Steps
import DeclCheck.Resolution

/-!
# What resolution keeps of a written type

A place in a type is a *path*: the position of an argument, the position of one of its arguments, and so on. What is
found at a path of a resolved type was written there, under the same name and with the same nullability. Only `Int` may
come back under another name, that of the integers. And only enums and groups lose something: they take no arguments,
and what was written below them is gone.

For this it does not matter what the tables hold. A name is looked up among nodes of every kind, and a node may stand
there with arguments of its own, but all that is taken of it is its kind and the name it was looked up by.

Where the parts were written is not compared, and nothing is said of types that are refused.
-/

namespace DeclCheck

/-! ## Names and what they mean -/

/-- A builtin is found under its own name or under `Int`. -/
theorem Builtin.name_of_ofName? {name : String} {kind : Builtin} (other : name ≠ "Int")
    (found : Builtin.ofName? name = some kind) : kind.name = name := by
  rw [Builtin.ofName?, if_neg other] at found
  simpa using List.find?_some found

namespace Meaning

/-- What a head means has that head. -/
theorem head_applied {head : Head} {meaning : Meaning} (meant : ofHead? head = some meaning) (args : List Ty)
    (nullable : Bool) : (meaning.applied args nullable).head = head := by
  cases head with
  | void | generic | unresolved => cases meant
  | builtin | struct | enum | group =>
    cases meant
    rfl

/-- What a name means is nullable as it was written. -/
theorem nullable_applied (meaning : Meaning) (args : List Ty) (nullable : Bool) :
    (meaning.applied args nullable).nullable = nullable := by
  cases meaning <;> rfl

end Meaning

/-- Whether arguments that are written under the head are dropped. -/
def Head.dropsArguments : Head → Bool
  | enum _ | group _ => true
  | _ => false

/-- Arguments are kept, unless the head takes none. -/
theorem Meaning.args_applied (meaning : Meaning) (args : List Ty) (nullable : Bool) :
    (meaning.applied args nullable).args = args ∨
      (meaning.applied args nullable).head.dropsArguments = true := by
  cases meaning with
  | builtin kind => exact Or.inl rfl
  | struct name => exact Or.inl rfl
  | enum name => exact Or.inr rfl
  | group name => exact Or.inr rfl

/-- Whether a head is spelled as it was written. The integers are, where `Int` was written. -/
def Head.SpelledAs (head written : Head) : Prop :=
  head.name? = written.name? ∨ written = .unresolved "Int" ∧ head = .builtin .integer

namespace TypeTable

variable {types : TypeTable} {generics : List String}

/-- **What a name means has that name**, unless the name is `Int` and means the integers. -/
theorem spelledAs_of_meaning {name : String} {meaning : Meaning} (meant : types.meaning? name = some meaning)
    (args : List Ty) (nullable : Bool) : (meaning.applied args nullable).head.SpelledAs (.unresolved name) := by
  unfold meaning? at meant
  split at meant
  · rename_i found located
    have named : found.name? = some name := by simpa using List.find?_some located
    rw [Meaning.head_applied meant]
    exact Or.inl named
  · split at meant
    · cases meant
      exact Or.inl rfl
    · split at meant
      · cases meant
        exact Or.inl rfl
      · obtain ⟨kind, listed, rfl⟩ := Option.map_eq_some_iff.mp meant
        by_cases short : name = "Int"
        · subst short
          cases listed
          exact Or.inr ⟨rfl, rfl⟩
        · exact Or.inl (congrArg some (Builtin.name_of_ofName? short listed))

/-- A bare name that has a meaning is resolved to it, if it is no generic name of the declaration. -/
theorem resolve_of_meaning {name : String} {meaning : Meaning} (meant : types.meaning? name = some meaning)
    (other : name ∉ generics) (location : Location) (nullable : Bool) :
    types.resolve generics (.app (.unresolved name location) [] nullable) = .ok (meaning.applied [] nullable) := by
  have allowed : types.checkTypeArguments (meaning.applied [] nullable) location = .ok () := by
    cases meaning with
    | struct own => simp only [Meaning.applied, checkTypeArguments]; cases types.structs.find? own <;> rfl
    | builtin | enum | group => rfl
  rw [resolve]
  simp only [other, decide_false, Bool.and_false, Bool.false_eq_true, if_false, resolveAll, meant]
  exact bind_eq_ok.mpr ⟨[], rfl, bind_eq_ok.mpr ⟨(), allowed, rfl⟩⟩

/-! ## The root of a resolved type -/

/-- **What one resolution does at the root of a type**: it keeps the name and the nullability, and resolves the
arguments, if it does not drop them. -/
theorem root_of_resolve {written ty : Ty} (resolved : types.resolve generics written = .ok ty) :
    ty.nullable = written.nullable ∧ ty.head.SpelledAs written.head ∧
      (ty.head.dropsArguments = true ∨ types.resolveAll generics written.args = .ok ty.args) := by
  cases written with
  | atom shape nullable =>
    have same : ty = .atom shape nullable := by
      cases shape with
      | generic name location =>
        rw [resolve] at resolved
        split at resolved <;> cases resolved
        rfl
      | void | enum | group =>
        cases resolved
        rfl
    subst same
    exact ⟨rfl, Or.inl rfl, Or.inr rfl⟩
  | app ctor args nullable =>
    cases ctor with
    | builtin | struct =>
      obtain ⟨found, resolving, made⟩ := bind_eq_ok.mp resolved
      cases made
      exact ⟨rfl, Or.inl rfl, Or.inr resolving⟩
    | unresolved name location =>
      rw [resolve] at resolved
      split at resolved
      · rename_i own
        cases resolved
        rw [Bool.and_eq_true, List.isEmpty_iff] at own
        obtain ⟨rfl, -⟩ := own
        exact ⟨rfl, Or.inl rfl, Or.inr rfl⟩
      · obtain ⟨found, resolving, next⟩ := bind_eq_ok.mp resolved
        split at next
        · cases next
        · rename_i meaning meant
          obtain ⟨-, -, made⟩ := bind_eq_ok.mp next
          cases made
          refine ⟨meaning.nullable_applied found nullable, spelledAs_of_meaning meant found nullable, ?_⟩
          rcases meaning.args_applied found nullable with kept | dropped
          · refine Or.inr ?_
            rw [kept]
            exact resolving
          · exact Or.inl dropped

/-- Arguments are resolved one by one, each in its position. -/
theorem getElem?_of_resolveAll {written found : List Ty} (resolved : types.resolveAll generics written = .ok found)
    (position : Nat) :
    (written[position]? = none ∧ found[position]? = none) ∨
      ∃ source ty, written[position]? = some source ∧ found[position]? = some ty ∧
        types.resolve generics source = .ok ty := by
  induction written generalizing found position with
  | nil =>
    cases resolved
    exact Or.inl ⟨rfl, rfl⟩
  | cons source rest ih =>
    obtain ⟨ty, first, next⟩ := bind_eq_ok.mp resolved
    obtain ⟨others, later, made⟩ := bind_eq_ok.mp next
    cases made
    cases position with
    | zero => exact Or.inr ⟨source, ty, rfl, rfl, first⟩
    | succ position => exact ih later position

end TypeTable

/-! ## Paths -/

/-- **The part of a type at a path**: the argument at the first position, its argument at the next, and so on. -/
def Ty.part? : List Nat → Ty → Option Ty
  | [], ty => some ty
  | position :: path, ty => (ty.args[position]?).bind (part? path)

namespace Ty

/-- A path goes down into the argument at its first position. -/
theorem part?_cons_of_getElem? {ty arg : Ty} {position : Nat} (found : ty.args[position]? = some arg)
    (path : List Nat) : ty.part? (position :: path) = arg.part? path := by
  rw [part?, found, Option.bind_some]

/-- It ends where there is no such argument. -/
theorem part?_cons_of_none {ty : Ty} {position : Nat} (absent : ty.args[position]? = none) (path : List Nat) :
    ty.part? (position :: path) = none := by
  rw [part?, absent, Option.bind_none]

theorem args_of_dropsArguments {ty : Ty} (drops : ty.head.dropsArguments = true) : ty.args = [] := by
  cases ty with
  | atom shape nullable => rfl
  | app ctor args nullable => cases ctor <;> cases drops

end Ty

namespace TypeTable

variable {types : TypeTable} {generics : List String}

/-- **Resolution keeps what was written, place by place.** A resolved type has at a path only what was written there,
spelled as it was and as nullable as it was. And what was written at a path is found there again, unless it stood
somewhere below an enum or a group. -/
theorem resolve_keepsSpelling {written ty : Ty} (resolved : types.resolve generics written = .ok ty)
    (path : List Nat) :
    (∀ part, ty.part? path = some part → ∃ source, written.part? path = some source ∧
      part.nullable = source.nullable ∧ part.head.SpelledAs source.head) ∧
    (∀ source, written.part? path = some source →
      (∃ part, ty.part? path = some part) ∨
      ty.part? path = none ∧ ∃ above below part, path = above ++ below ∧ below ≠ [] ∧
        ty.part? above = some part ∧ part.head.dropsArguments = true) := by
  induction path generalizing written ty with
  | nil =>
    obtain ⟨nullable, spelled, -⟩ := root_of_resolve resolved
    constructor
    · intro part found
      cases found
      exact ⟨written, rfl, nullable, spelled⟩
    · intro source found
      exact Or.inl ⟨ty, rfl⟩
  | cons position path ih =>
    obtain ⟨-, -, dropped | resolving⟩ := root_of_resolve resolved
    · have absent : ty.args[position]? = none := by
        rw [Ty.args_of_dropsArguments dropped]
        rfl
      have gone := Ty.part?_cons_of_none absent path
      constructor
      · intro part found
        rw [gone] at found
        cases found
      · intro source found
        exact Or.inr ⟨gone, [], position :: path, ty, rfl, List.cons_ne_nil _ _, rfl, dropped⟩
    · rcases getElem?_of_resolveAll resolving position with ⟨absent, gone⟩ | ⟨arg, result, given, made, inner⟩
      · constructor
        · intro part found
          rw [Ty.part?_cons_of_none gone] at found
          cases found
        · intro source found
          rw [Ty.part?_cons_of_none absent] at found
          cases found
      · obtain ⟨kept, found⟩ := ih inner
        rw [Ty.part?_cons_of_getElem? given, Ty.part?_cons_of_getElem? made]
        refine ⟨kept, fun source here => ?_⟩
        rcases found source here with there | ⟨gone, above, below, part, rfl, some, reached, drops⟩
        · exact Or.inl there
        · refine Or.inr ⟨gone, position :: above, below, part, rfl, some, ?_, drops⟩
          rw [Ty.part?_cons_of_getElem? made]
          exact reached

/-- A list as it is written: of nullable integers under their other name, of a placeholder, and of truth values with an
argument that they do not take. -/
def writtenList : Ty :=
  .app (.unresolved "List" .nowhere)
    [.app (.unresolved "Int" .nowhere) [] true, .app (.unresolved "T" .nowhere) [] false,
      .app (.unresolved "Boolean" .nowhere) [.app (.unresolved "Int" .nowhere) [] false] false]
    false

/-- What the list is resolved to. -/
def resolvedList : Ty :=
  .app (.builtin .list)
    [.app (.builtin .integer) [] true, .atom (.generic "T" .nowhere) false, .enum "Boolean"] false

theorem writtenList_keepsSpelling :
    TypeTable.initial.resolve ["T"] writtenList = .ok resolvedList ∧
    (∃ source, writtenList.part? [0] = some source ∧ source.nullable = true ∧
      (Head.builtin .integer).SpelledAs source.head) ∧
    (∃ part, resolvedList.part? [1] = some part) ∧
    resolvedList.part? [2, 0] = none ∧ ∃ above below part, [2, 0] = above ++ below ∧ below ≠ [] ∧
      resolvedList.part? above = some part ∧ part.head.dropsArguments = true := by
  have resolved : TypeTable.initial.resolve ["T"] writtenList = .ok resolvedList := rfl
  obtain ⟨source, given, nullable, spelled⟩ := (resolve_keepsSpelling resolved [0]).1 _ rfl
  refine ⟨resolved, ⟨source, given, nullable.symm, spelled⟩, ⟨_, rfl⟩, ?_⟩
  rcases (resolve_keepsSpelling resolved [2, 0]).2 _ rfl with ⟨part, found⟩ | dropped
  · cases found
  · exact dropped

end TypeTable

end DeclCheck
