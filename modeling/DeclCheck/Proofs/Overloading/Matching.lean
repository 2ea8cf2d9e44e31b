import DeclCheck.Overloading
import DeclCheck.Proofs.Locations.Types
import DeclCheck.Proofs.Ty.Equality
import DeclCheck.Proofs.Ty.Placeholders
import Mathlib.Data.List.Induction

/-!
# What matching reads

Matching a declared type against an actual one *reads* the actual type at the places of the placeholders. The
readings come in the order of the walk, and of several readings of one name the last one decides. Everything about
the bindings that a match makes follows from the list of its readings: an instance of a declared type is read as it
was made, and a type whose placeholders were replaced is read through what stands in their places.
-/

namespace DeclCheck

/-- What an actual type has at the place of a placeholder. -/
structure Reading where
  name : String
  part : Ty

namespace Ty

mutual

/-- **The readings of an actual type at the placeholders of a declared one**, in the order of the walk. -/
def readings : Ty → Ty → List Reading
  | .atom (.generic name _) _, actual => [⟨name, actual⟩]
  | .atom _ _, _ => []
  | .app _ args _, actual => allReadings args actual.args

/-- The readings of several types, from left to right. -/
def allReadings : List Ty → List Ty → List Reading
  | declared :: rest, actual :: actuals => declared.readings actual ++ allReadings rest actuals
  | _, _ => []

end

end Ty

/-! ## Bindings from readings -/

namespace Bindings

/-- The bindings with one reading more. -/
def note (bindings : Bindings) (reading : Reading) : Bindings :=
  bindings.insert reading.name (reading.part.withNullable false)

/-- A placeholder is bound to the part that was read last. -/
theorem find?_note (bindings : Bindings) (reading : Reading) (name : String) :
    (bindings.note reading).find? name =
      if name = reading.name then some (reading.part.withNullable false) else bindings.find? name :=
  Dict.find?_insert _ _ _ _

/-- **A name is bound to one of its readings**, or as it was before if there are none. -/
theorem find?_foldl_note (readings : List Reading) (bindings : Bindings) (name : String) :
    (∃ reading ∈ readings, reading.name = name ∧
        (readings.foldl note bindings).find? name = some (reading.part.withNullable false)) ∨
      ((∀ reading ∈ readings, reading.name ≠ name) ∧
        (readings.foldl note bindings).find? name = bindings.find? name) := by
  -- the last reading comes first, since it decides
  induction readings using List.reverseRecOn with
  | nil => exact Or.inr ⟨fun _ mem => (nomatch mem), rfl⟩
  | append_singleton earlier last ih =>
    rw [List.foldl_concat, find?_note]
    by_cases own : name = last.name
    · rw [if_pos own]
      exact Or.inl ⟨last, List.mem_append_right _ List.mem_cons_self, own.symm, rfl⟩
    · rw [if_neg own]
      rcases ih with ⟨reading, mem, named, found⟩ | ⟨none, found⟩
      · exact Or.inl ⟨reading, List.mem_append_left _ mem, named, found⟩
      · refine Or.inr ⟨fun reading mem => ?_, found⟩
        rcases List.mem_append.mp mem with old | new
        · exact none reading old
        · rw [List.mem_singleton.mp new]
          exact fun same => own same.symm

end Bindings

namespace Ty

mutual

/-- **Matching notes its readings**, one after another. -/
theorem bind_eq_foldl : ∀ (declared : Ty) (bindings : Bindings) (actual : Ty),
    declared.bind bindings actual = (declared.readings actual).foldl Bindings.note bindings
  | .atom (.generic _ _) _, _, _ => rfl
  | .atom .void _, _, _ => rfl
  | .atom (.enum _) _, _, _ => rfl
  | .atom (.group _) _, _, _ => rfl
  | .app _ args _, bindings, actual => by rw [bind, readings, bindAll_eq_foldl args]

/-- Binding several types notes all their readings in order. -/
theorem bindAll_eq_foldl : ∀ (declared : List Ty) (bindings : Bindings) (actuals : List Ty),
    bindAll bindings declared actuals = (allReadings declared actuals).foldl Bindings.note bindings
  | [], _, [] => rfl
  | [], _, _ :: _ => rfl
  | _ :: _, _, [] => rfl
  | ty :: rest, bindings, actual :: actuals => by
    rw [bindAll, allReadings, List.foldl_append, bind_eq_foldl ty, bindAll_eq_foldl rest]

end

/-! ## What is read -/

/-- Nullability is not read. -/
theorem readings_withNullable (declared actual : Ty) (nullable : Bool) :
    (declared.withNullable nullable).readings actual = declared.readings actual := by
  cases declared with
  | atom shape flag => cases shape <;> rfl
  | app ctor args flag => rfl

mutual

/-- Only placeholders that the declared type mentions are read. -/
theorem mem_genericNames_of_mem_readings : ∀ (declared : Ty) {actual : Ty} {reading : Reading},
    reading ∈ declared.readings actual → reading.name ∈ declared.genericNames
  | .atom (.generic _ _) _, _, _, mem => by
    rw [List.mem_singleton.mp mem]
    exact mem_genericNames_generic.mpr rfl
  | .atom .void _, _, _, mem => by cases mem
  | .atom (.enum _) _, _, _, mem => by cases mem
  | .atom (.group _) _, _, _, mem => by cases mem
  | .app _ args _, _, _, mem => mem_genericNames_app.mpr (exists_mem_genericNames_of_mem_allReadings args mem)

/-- What is read is the part at a placeholder that is mentioned. -/
theorem exists_mem_genericNames_of_mem_allReadings : ∀ (declared : List Ty) {actuals : List Ty} {reading : Reading},
    reading ∈ allReadings declared actuals → ∃ ty ∈ declared, reading.name ∈ ty.genericNames
  | [], [], _, mem => by cases mem
  | [], _ :: _, _, mem => by cases mem
  | _ :: _, [], _, mem => by cases mem
  | ty :: rest, _ :: _, _, mem => by
    rcases List.mem_append.mp mem with first | later
    · exact ⟨ty, List.mem_cons_self, mem_genericNames_of_mem_readings ty first⟩
    · obtain ⟨other, listed, named⟩ := exists_mem_genericNames_of_mem_allReadings rest later
      exact ⟨other, List.mem_cons_of_mem _ listed, named⟩

end

/-! ## Reading an instance -/

mutual

/-- Where an instance of a declared type is read, it has what the placeholder was replaced by. -/
theorem part_of_mem_readings {bindings : Bindings} : ∀ (declared : Ty) {reading : Reading},
    reading ∈ declared.readings (declared.substitute bindings) →
      ∃ location nullable, reading.part = (Ty.atom (.generic reading.name location) nullable).substitute bindings
  | .atom (.generic name location) nullable, _, mem => by
    rw [List.mem_singleton.mp mem]
    exact ⟨location, nullable, rfl⟩
  | .atom .void _, _, mem => by cases mem
  | .atom (.enum _) _, _, mem => by cases mem
  | .atom (.group _) _, _, mem => by cases mem
  | .app _ args _, _, mem => part_of_mem_allReadings args mem

/-- From a substituted type one reads what was put in. -/
theorem part_of_mem_allReadings {bindings : Bindings} : ∀ (declared : List Ty) {reading : Reading},
    reading ∈ allReadings declared (substituteAll bindings declared) →
      ∃ location nullable, reading.part = (Ty.atom (.generic reading.name location) nullable).substitute bindings
  | [], _, mem => by cases mem
  | ty :: rest, _, mem => by
    rcases List.mem_append.mp mem with first | later
    · exact part_of_mem_readings ty first
    · exact part_of_mem_allReadings rest later

end

mutual

/-- **In what equals an instance every placeholder of the declared type is read**: equal types have the same number of
arguments at every place. -/
theorem exists_reading_of_equals {bindings : Bindings} {name : String} : ∀ (declared : Ty) {actual : Ty},
    actual.equals (declared.substitute bindings) = true → name ∈ declared.genericNames →
      ∃ reading ∈ declared.readings actual, reading.name = name
  | .atom (.generic own location) nullable, _, _, mem =>
    ⟨_, List.mem_singleton.mpr rfl, (mem_genericNames_generic.mp mem).symm⟩
  | .atom .void _, _, _, mem => by cases mem
  | .atom (.enum _) _, _, _, mem => by cases mem
  | .atom (.group _) _, _, _, mem => by cases mem
  | .app _ args _, _, same, mem =>
    exists_reading_of_allEqual args (equals_iff.mp same).2 (mem_genericNames_app.mp mem)

/-- Where types are equal, every placeholder that is mentioned is read. -/
theorem exists_reading_of_allEqual {bindings : Bindings} {name : String} : ∀ (declared : List Ty) {actuals : List Ty},
    allEqual actuals (substituteAll bindings declared) = true → (∃ ty ∈ declared, name ∈ ty.genericNames) →
      ∃ reading ∈ allReadings declared actuals, reading.name = name
  | [], _, _, mentioned => by
    obtain ⟨ty, mem, -⟩ := mentioned
    cases mem
  | _ :: _, [], same, _ => by cases same
  | ty :: rest, actual :: actuals, same, mentioned => by
    rw [substituteAll, allEqual, Bool.and_eq_true] at same
    rcases (List.exists_mem_cons_iff _ _ _).mp mentioned with here | later
    · obtain ⟨reading, mem, named⟩ := exists_reading_of_equals ty same.1 here
      exact ⟨reading, List.mem_append_left _ mem, named⟩
    · obtain ⟨reading, mem, named⟩ := exists_reading_of_allEqual rest same.2 later
      exact ⟨reading, List.mem_append_right _ mem, named⟩

end

/-- So every placeholder of a type is read from what a substitution makes of it. -/
theorem exists_reading {bindings : Bindings} {name : String} (declared : Ty)
    (mentioned : name ∈ declared.genericNames) :
    ∃ reading ∈ declared.readings (declared.substitute bindings), reading.name = name :=
  exists_reading_of_equals declared (equals_self _) mentioned

mutual

/-- Without bindings nothing is replaced. -/
theorem substitute_empty : ∀ ty : Ty, ty.substitute .empty = ty
  | .atom (.generic _ _) _ => rfl
  | .atom .void _ => rfl
  | .atom (.enum _) _ => rfl
  | .atom (.group _) _ => rfl
  | .app _ args _ => by rw [substitute, substituteAll_empty args]

/-- Without bindings nothing is put in. -/
theorem substituteAll_empty : ∀ types : List Ty, substituteAll .empty types = types
  | [] => rfl
  | ty :: rest => by rw [substituteAll, substitute_empty ty, substituteAll_empty rest]

end

/-- A type that is matched with itself has the placeholders at their own places. -/
theorem part_of_mem_readings_self {ty : Ty} {reading : Reading} (mem : reading ∈ ty.readings ty) :
    ∃ location nullable, reading.part = .atom (.generic reading.name location) nullable := by
  have read : reading ∈ ty.readings (ty.substitute .empty) := by rwa [substitute_empty]
  exact part_of_mem_readings ty read

/-- Every placeholder of a type is read from the type itself. -/
theorem exists_reading_self {ty : Ty} {name : String} (mentioned : name ∈ ty.genericNames) :
    ∃ reading ∈ ty.readings ty, reading.name = name := by
  simpa only [substitute_empty] using @exists_reading .empty name ty mentioned

end Ty

/-! ## Reading through what placeholders were replaced by -/

/-- The readings of a part at what stands in the place of its placeholder. -/
def Reading.reread (bindings : Bindings) (reading : Reading) : List Reading :=
  ((Ty.generic reading.name).substitute bindings).readings reading.part

namespace Ty

mutual

/-- **A type with its placeholders replaced is read through what stands in their places.** -/
theorem readings_substitute {bindings : Bindings} : ∀ (declared actual : Ty),
    (declared.substitute bindings).readings actual = (declared.readings actual).flatMap (·.reread bindings)
  | .atom (.generic name location) nullable, actual => by
    rw [readings, List.flatMap_singleton, Reading.reread, Ty.generic, substitute, substitute]
    cases bindings.find? name with
    | none => rfl
    | some bound => simp only [readings_withNullable]
  | .atom .void _, _ => rfl
  | .atom (.enum _) _, _ => rfl
  | .atom (.group _) _, _ => rfl
  | .app _ args _, actual => allReadings_substituteAll args actual.args

/-- **Readings of a substituted type are readings of readings.** -/
theorem allReadings_substituteAll {bindings : Bindings} : ∀ (declared actuals : List Ty),
    allReadings (substituteAll bindings declared) actuals =
      (allReadings declared actuals).flatMap (·.reread bindings)
  | [], [] => rfl
  | [], _ :: _ => rfl
  | _ :: _, [] => rfl
  | ty :: rest, actual :: actuals => by
    rw [substituteAll, allReadings, allReadings, List.flatMap_append, readings_substitute ty,
      allReadings_substituteAll rest]

end

end Ty

/-! ## Reading again -/

/-- **Whether every name is bound to itself**, if it is bound. -/
def Bindings.Reflexive (bindings : Bindings) : Prop :=
  ∀ name bound, bindings.find? name = some bound → ∃ location, bound = .atom (.generic name location) false

namespace Reading

variable {bindings : Bindings} {reading : Reading}

/-- A part that stands in the place of its placeholder is matched with itself. -/
theorem reread_of_find? (bound : bindings.find? reading.name = some (reading.part.withNullable false)) :
    reading.reread bindings = reading.part.readings reading.part := by
  rw [reread, Ty.generic, Ty.substitute, bound]
  simp only [Ty.readings_withNullable]

/-- Every name that the part mentions is read there. -/
theorem exists_mem_reread (bound : bindings.find? reading.name = some (reading.part.withNullable false))
    {name : String} (mentioned : name ∈ ((Ty.generic reading.name).substitute bindings).genericNames) :
    ∃ other ∈ reading.reread bindings, other.name = name := by
  rw [reread_of_find? bound]
  rw [Ty.generic, Ty.substitute, bound] at mentioned
  simp only [Ty.genericNames_withNullable] at mentioned
  exact Ty.exists_reading_self mentioned

end Reading

namespace Bindings

/-- A name is read as itself where it stands last, if the placeholders that bring it in are bound to their last
readings. -/
private theorem find?_reread {bindings : Bindings} {name : String} {bound : Ty} (readings : List Reading)
    (last : ∀ reading ∈ readings, name ∈ ((Ty.generic reading.name).substitute bindings).genericNames →
      bindings.find? reading.name = (readings.foldl note .empty).find? reading.name)
    (found : ((readings.flatMap (·.reread bindings)).foldl note .empty).find? name = some bound) :
    ∃ location, bound = .atom (.generic name location) false := by
  induction readings using List.reverseRecOn with
  | nil => cases found
  | append_singleton earlier latest ih =>
    have latestMem : latest ∈ earlier ++ [latest] := List.mem_append_right _ List.mem_cons_self
    -- if the latest placeholder brings the name in, it stands there for what is read there
    have stands : name ∈ ((Ty.generic latest.name).substitute bindings).genericNames →
        bindings.find? latest.name = some (latest.part.withNullable false) := by
      intro mentioned
      rw [last latest latestMem mentioned, List.foldl_concat, find?_note, if_pos rfl]
    rw [List.flatMap_append, List.flatMap_singleton, List.foldl_append] at found
    rcases find?_foldl_note (latest.reread bindings) ((earlier.flatMap (·.reread bindings)).foldl note .empty) name
      with ⟨reading, mem, rfl, here⟩ | ⟨absent, before⟩
    · have mentioned := Ty.mem_genericNames_of_mem_readings _ mem
      rw [Reading.reread_of_find? (stands mentioned)] at mem
      obtain ⟨location, nullable, part⟩ := Ty.part_of_mem_readings_self mem
      rw [here, part] at found
      cases found
      exact ⟨location, rfl⟩
    · rw [before] at found
      refine ih (fun reading mem mentioned => ?_) found
      have other : reading.name ≠ latest.name := by
        intro same
        rw [same] at mentioned
        obtain ⟨again, mem, named⟩ := Reading.exists_mem_reread (stands mentioned) mentioned
        exact absent again mem named
      rw [last reading (List.mem_append_left _ mem) mentioned, List.foldl_concat, find?_note, if_neg other]

/-- **What a match has bound is bound to itself when the match is repeated** with the placeholders replaced. -/
theorem reflexive_reread (readings : List Reading) :
    ((readings.flatMap (·.reread (readings.foldl note .empty))).foldl note .empty).Reflexive :=
  fun _ _ found => find?_reread readings (fun _ _ _ => rfl) found

end Bindings

namespace Ty

mutual

/-- Names that are bound to themselves are replaced by themselves, wherever they were written. -/
theorem unplaced_substitute {bindings : Bindings} (reflexive : bindings.Reflexive) :
    ∀ ty : Ty, (ty.substitute bindings).unplaced = ty.unplaced
  | .atom (.generic name location) nullable => by
    rw [substitute]
    cases found : bindings.find? name with
    | none => rfl
    | some bound =>
      obtain ⟨other, rfl⟩ := reflexive name bound found
      rfl
  | .atom .void _ => rfl
  | .atom (.enum _) _ => rfl
  | .atom (.group _) _ => rfl
  | .app ctor args nullable => by rw [substitute, unplaced, unplaced, allUnplaced_substituteAll reflexive args]

/-- Placeholders bound to themselves change places only. -/
theorem allUnplaced_substituteAll {bindings : Bindings} (reflexive : bindings.Reflexive) :
    ∀ types : List Ty, allUnplaced (substituteAll bindings types) = allUnplaced types
  | [] => rfl
  | ty :: rest => by
    rw [substituteAll, allUnplaced, allUnplaced, unplaced_substitute reflexive ty,
      allUnplaced_substituteAll reflexive rest]

end

end Ty

/-! ## The arguments of a call -/

namespace FunctionDecl

/-- **The readings of the arguments of a call**, from the last parameter to the first. -/
def readings (decl : FunctionDecl) (actuals : List Ty) : List Reading :=
  (decl.paramTypes.zip actuals).reverse.flatMap fun pair => pair.1.readings pair.2

/-- The bindings of a call note all that is read from its arguments. -/
theorem bindings_eq_foldl (decl : FunctionDecl) (actuals : List Ty) :
    Overloading.bindings decl actuals = (decl.readings actuals).foldl Bindings.note .empty := by
  simp only [Overloading.bindings, readings, List.foldl_flatMap, Ty.bind_eq_foldl]

/-- Substitution changes the types of parameters one by one. -/
theorem paramTypes_substituted (decl : FunctionDecl) (bindings : Bindings) :
    (Overloading.substituted decl bindings).paramTypes = decl.paramTypes.map (Ty.substitute bindings) := by
  simp only [Overloading.substituted, paramTypes, List.map_map]
  rfl

/-- What is read from a specialised function is read again from what was read. -/
theorem readings_substituted (decl : FunctionDecl) (bindings : Bindings) (actuals : List Ty) :
    (Overloading.substituted decl bindings).readings actuals =
      (decl.readings actuals).flatMap (·.reread bindings) := by
  simp only [readings, paramTypes_substituted, List.zip_map_left, ← List.map_reverse, List.flatMap_map,
    List.flatMap_assoc, Prod.map_fst, Prod.map_snd, id_eq, Ty.readings_substitute]

/-- **A specialisation binds its placeholders to themselves** when it is specialised to the same arguments again. -/
theorem reflexive_bindings_substituted (decl : FunctionDecl) (actuals : List Ty) :
    (Overloading.bindings (Overloading.substituted decl (Overloading.bindings decl actuals)) actuals).Reflexive := by
  rw [bindings_eq_foldl, readings_substituted, bindings_eq_foldl]
  exact Bindings.reflexive_reread _

end FunctionDecl

end DeclCheck
