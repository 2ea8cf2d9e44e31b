import DeclCheck.Conformity
import DeclCheck.Proofs.Lattice.Search
import DeclCheck.Proofs.Overloading.Matching
import DeclCheck.Proofs.Placeholders.Walk

/-!
# Bindings that grow

The members of a struct literal bind its placeholders one after another, and no binding is ever changed. Each value is
compared with its member under the bindings of that moment. Under later bindings the member may have become another
type: a placeholder inside it that was not bound at first is replaced now. The value conforms all the same.

It conformed by equality, and then the placeholder was read from the value and is not new. Or it conformed by a rule
that looks at the head of the member and at its nullability. Neither is changed by what stands inside, and a member that
is a placeholder altogether is always bound by its own value.
-/

namespace DeclCheck

/-! ## What is bound -/

namespace Bindings

variable {bindings more : Bindings} {name : String}

/-- **Whether bindings keep all that others have bound.** -/
def Extends (bindings more : Bindings) : Prop :=
  ∀ ⦃name : String⦄ ⦃bound : Ty⦄, bindings.find? name = some bound → more.find? name = some bound

theorem Extends.refl (bindings : Bindings) : bindings.Extends bindings := fun _ _ found => found

theorem Extends.trans {last : Bindings} (first : bindings.Extends more) (second : more.Extends last) :
    bindings.Extends last := fun _ _ found => second (first found)

theorem Extends.find?_eq (grown : bindings.Extends more) (known : bindings.contains name = true) :
    more.find? name = bindings.find? name := by
  obtain ⟨bound, found⟩ := Option.isSome_iff_exists.mp known
  rw [found]
  exact grown found

end Bindings

theorem find?_bindMissing (bindings found : Bindings) (name : String) :
    (bindMissing bindings found).find? name = (bindings.find? name).or (found.find? name) :=
  Dict.find?_foldl_insertNew found.entries bindings name

theorem extends_bindMissing (bindings found : Bindings) : bindings.Extends (bindMissing bindings found) := by
  intro name bound known
  rw [find?_bindMissing, known, Option.some_or]

theorem contains_bindMissing {bindings found : Bindings} {name : String} (new : found.contains name = true) :
    (bindMissing bindings found).contains name = true := by
  unfold Dict.contains at new ⊢
  rw [find?_bindMissing, Option.isSome_or, new, Bool.or_true]

/-- What is read is bound. -/
theorem Ty.contains_bind {declared actual : Ty} {reading : Reading} (bindings : Bindings)
    (read : reading ∈ declared.readings actual) : (declared.bind bindings actual).contains reading.name = true := by
  rw [Dict.contains, bind_eq_foldl]
  rcases Bindings.find?_foldl_note (declared.readings actual) bindings reading.name with ⟨_, -, -, found⟩ | ⟨none, -⟩
  · rw [found, Option.isSome_some]
  · exact absurd rfl (none reading read)

/-- A placeholder reads the whole of every type. -/
theorem Ty.exists_reading_of_isGeneric {declared actual : Ty} (generic : declared.isGeneric = true) {name : String}
    (mentioned : name ∈ declared.genericNames) : ∃ reading ∈ declared.readings actual, reading.name = name := by
  cases declared with
  | app ctor args nullable => cases generic
  | atom shape nullable =>
    cases shape with
    | generic own location => exact ⟨_, List.mem_singleton.mpr rfl, (mem_genericNames_generic.mp mentioned).symm⟩
    | void | enum | group => cases generic

/-- Where there is an argument for each name, all names are bound. -/
theorem contains_bindPairs_zip {names : List String} {args : List Ty} (count : args.length = names.length)
    {name : String} (mem : name ∈ names) : (bindPairs (names.zip args)).contains name = true := by
  rw [Dict.contains, ← Option.ne_none_iff_isSome]
  intro unbound
  have absent := not_mem_take_of_find? unbound
  rw [count, List.take_length] at absent
  exact absent mem

/-- **The arguments that names are bound to bind these names again**, also if some of them are the same. -/
theorem find?_bindPairs_zip {bindings : Bindings} {names : List String} {args : List Ty}
    (bound : names.map bindings.find? = args.map some) {name : String} (mem : name ∈ names) :
    (bindPairs (names.zip args)).find? name = bindings.find? name := by
  have each : ∀ pair ∈ names.zip args, bindings.find? pair.1 = some pair.2 := by
    intro pair listed
    obtain ⟨position, inside, rfl⟩ := List.mem_iff_getElem.mp listed
    have both : position < names.length ∧ position < args.length := by
      rw [List.length_zip] at inside
      omega
    have there := congrArg (·[position]?) bound
    simp only [List.getElem?_map, List.getElem?_eq_getElem both.1, List.getElem?_eq_getElem both.2, Option.map_some,
      Option.some.injEq] at there
    rw [List.getElem_zip]
    exact there
  have sound : Bindings.Extends (bindPairs (names.zip args)) bindings := by
    have empty : Bindings.Extends .empty bindings := fun _ _ found => by cases found
    refine List.foldlRecOn (motive := fun acc => Bindings.Extends acc bindings) _ _ empty
      fun acc known pair listed => ?_
    intro other ty found
    rw [Dict.find?_insert] at found
    split at found
    · rename_i same
      cases found
      rw [same]
      exact each pair listed
    · exact known found
  have count : args.length = names.length := by
    have lengths := congrArg List.length bound
    simp only [List.length_map] at lengths
    exact lengths.symm
  exact (sound.find?_eq (contains_bindPairs_zip count mem)).symm

/-! ## What conforms -/

/-- Apart from equality, conformity looks at the head of the expected type and at its nullability. -/
theorem Lattice.isSubtype_of_frame {lattice : Lattice} {actual expected other : Ty}
    (conforms : lattice.isSubtype actual expected = true) (head : other.head = expected.head)
    (nullable : other.nullable = expected.nullable)
    (equal : actual.equals expected = true → actual.equals other = true) :
    lattice.isSubtype actual other = true := by
  by_cases same : actual.equals other = true
  · simp only [isSubtype, same, Bool.true_or]
  · have different : ¬ actual.equals expected = true := mt equal same
    have distance : lattice.distance actual other = lattice.distance actual expected := by
      rw [distance_eq, distance_eq, if_neg same, if_neg different,
        search_ancestor_congr lattice head]
    simp only [isSubtype, meetsAtNil, Ty.isAny, Ty.isNil, Bool.or_eq_true, different] at conforms
    simp only [isSubtype, meetsAtNil, Ty.isAny, Ty.isNil, Bool.or_eq_true, same, head, nullable, distance]
    exact conforms

/-- **A value that conforms under some bindings conforms under later ones**, if all that is read from it was bound. -/
theorem Lattice.isSubtype_of_extends {lattice : Lattice} {bindings more : Bindings} {declared actual : Ty}
    (grown : bindings.Extends more)
    (known : ∀ reading ∈ declared.readings actual, bindings.contains reading.name = true)
    (conforms : lattice.isSubtype actual (declared.substitute bindings) = true) :
    lattice.isSubtype actual (declared.substitute more) = true := by
  -- where every placeholder is read, nothing is replaced otherwise than before
  have unchanged (all : ∀ name ∈ declared.genericNames, ∃ reading ∈ declared.readings actual, reading.name = name) :
      declared.substitute more = declared.substitute bindings := by
    apply Ty.substitute_congr
    intro name mentioned
    obtain ⟨reading, read, rfl⟩ := all name mentioned
    exact grown.find?_eq (known reading read)
  cases generic : declared.isGeneric with
  | true =>
    rw [unchanged]
    · exact conforms
    · intro name mentioned
      exact Ty.exists_reading_of_isGeneric generic mentioned
  | false =>
    obtain ⟨head, nullable, -⟩ := Ty.substitute_frame generic more
    obtain ⟨headBefore, nullableBefore, -⟩ := Ty.substitute_frame generic bindings
    refine isSubtype_of_frame conforms (head.trans headBefore.symm) (nullable.trans nullableBefore.symm) ?_
    intro equal
    rw [unchanged]
    · exact equal
    · intro name mentioned
      exact Ty.exists_reading_of_equals declared equal mentioned

end DeclCheck
