import DeclCheck.Proofs.Ascending
import DeclCheck.Proofs.Text.ByteOrder
import DeclCheck.Symbols.Types
import DeclCheck.Text.Suggestion

/-!
# The best suggestions

Of the candidates for a misspelt name those are *eligible* that lie within reach of it and are not the name itself. They
are ranked by their distance to the name, and where distances are equal by their bytes. What is suggested are the first
three in this order, or all of them if there are no more, so the suggestions are the same for all lists of the same
candidates.

Which names are candidates is the caller's affair. Only the list of all type names is looked at here, as far as its
order goes.
-/

namespace DeclCheck.Text

/-! ## The order of names -/

/-- Of two different names one comes before the other. -/
theorem nameBefore_strict : Ascending.Strict Ascending.nameBefore where
  irrefl name := decide_eq_false (lt_irrefl name)
  trans one two := decide_eq_true ((of_decide_eq_true one).trans (of_decide_eq_true two))
  total different := (lt_or_gt_of_ne different).imp decide_eq_true decide_eq_true

/-- **The names of all types are sorted, and then equal neighbours are removed.** -/
theorem typeNames_eq_withoutRepeats (types : TypeTable) :
    types.typeNames = Ascending.withoutRepeats (Ascending.sorted Ascending.nameBefore
      (types.lattice.types.filterMap Ty.name? ++ types.structs.keys ++ types.enums.keys)) := by
  rw [Ascending.withoutRepeats_sorted nameBefore_strict]
  rfl

/-! ## The order of ranked names -/

/-- Ranked names are ordered by distance, and at the same distance by bytes. -/
theorem RankedName.before_iff {first second : RankedName} :
    first.before second = true ↔
      first.distance < second.distance ∨ first.distance = second.distance ∧ bytes first.name < bytes second.name := by
  rw [bytes_lt_iff]
  simp only [before, Ascending.nameBefore, Bool.or_eq_true, Bool.and_eq_true, decide_eq_true_eq, beq_iff_eq]

/-- Of two different ranked names one comes before the other. -/
theorem RankedName.before_strict : Ascending.Strict RankedName.before where
  irrefl ranked := by
    rw [← Bool.not_eq_true, before_iff]
    rintro (closer | ⟨-, smaller⟩)
    · exact Nat.lt_irrefl _ closer
    · exact List.lt_irrefl _ smaller
  trans := by
    intro first second third one two
    rw [before_iff] at one two ⊢
    rcases one with closer | ⟨same, smaller⟩
    · left
      omega
    · rcases two with closer | ⟨level, further⟩
      · left
        omega
      · right
        exact ⟨same.trans level, List.lt_trans smaller further⟩
  total := by
    intro first second different
    rw [before_iff, before_iff]
    rcases Nat.lt_trichotomy first.distance second.distance with closer | same | farther
    · exact .inl (.inl closer)
    · have names : first.name ≠ second.name := by
        intro alike
        apply different
        cases first
        cases second
        cases same
        cases alike
        rfl
      rw [bytes_lt_iff, bytes_lt_iff]
      rcases lt_or_gt_of_ne names with smaller | greater
      · exact .inl (.inr ⟨same, smaller⟩)
      · exact .inr (.inr ⟨same.symm, greater⟩)
    · exact .inr (.inl farther)

/-! ## Eligible candidates -/

/-- **Whether a name may be suggested**: it is a candidate, it is not the misspelt name itself, and it takes no more
edits than a third of the name's length, or than two where that is less. -/
structure Eligible (name : String) (candidates : List String) (candidate : String) : Prop where
  listed : candidate ∈ candidates
  different : candidate ≠ name
  near : editDistance name candidate ≤ max 2 (name.length / 3)

/-- **The order of suggestions**: by distance to the misspelt name, and at the same distance by bytes. -/
def ComesFirst (name first second : String) : Prop :=
  editDistance name first < editDistance name second ∨
    editDistance name first = editDistance name second ∧ bytes first < bytes second

section

variable {name : String} {candidates : List String}

/-- No name comes before itself. -/
theorem ComesFirst.ne {first second : String} (before : ComesFirst name first second) : first ≠ second := by
  rintro rfl
  rcases before with closer | ⟨-, smaller⟩
  · exact Nat.lt_irrefl _ closer
  · exact List.lt_irrefl _ smaller

/-- **The eligible candidates are ranked by their distances, and nothing else is ranked.** -/
theorem mem_rankedNames {ranked : RankedName} :
    ranked ∈ rankedNames name candidates ↔
      Eligible name candidates ranked.name ∧ ranked.distance = editDistance name ranked.name := by
  unfold rankedNames suggestionReach
  rw [Ascending.mem_ofList, List.mem_filter, List.mem_map]
  simp only [List.mem_filter, bne_iff_ne, decide_eq_true_eq]
  constructor
  · rintro ⟨⟨candidate, ⟨listed, different⟩, rfl⟩, near⟩
    rw [Nat.max_comm] at near
    exact ⟨⟨listed, different, near⟩, rfl⟩
  · rintro ⟨⟨listed, different, near⟩, own⟩
    refine ⟨⟨ranked.name, ⟨listed, different⟩, ?_⟩, ?_⟩
    · rw [← own]
    · rw [own, Nat.max_comm]
      exact near

/-- **The ranking is sorted, and then equal neighbours are removed.** -/
theorem rankedNames_eq_withoutRepeats (name : String) (candidates : List String) :
    rankedNames name candidates =
      Ascending.withoutRepeats (Ascending.sorted RankedName.before
        (((candidates.filter (· != name)).map fun candidate => ⟨editDistance name candidate, candidate⟩).filter
          fun ranked => ranked.distance ≤ suggestionReach name)) := by
  rw [Ascending.withoutRepeats_sorted RankedName.before_strict]
  rfl

/-! ## The ranking -/

/-- All eligible candidates, the best first. -/
def ranking (name : String) (candidates : List String) : List String := (rankedNames name candidates).map (·.name)

/-- The suggestions are the first three of the ranking. -/
theorem similarNames_eq_take (name : String) (candidates : List String) :
    similarNames name candidates = (ranking name candidates).take 3 := by
  unfold similarNames ranking suggestionLimit
  rw [List.map_take]

/-- **All eligible candidates are ranked**, and nothing else. -/
theorem mem_ranking {candidate : String} :
    candidate ∈ ranking name candidates ↔ Eligible name candidates candidate := by
  unfold ranking
  rw [List.mem_map]
  constructor
  · rintro ⟨ranked, mem, rfl⟩
    exact (mem_rankedNames.mp mem).1
  · intro eligible
    exact ⟨⟨editDistance name candidate, candidate⟩, mem_rankedNames.mpr ⟨eligible, rfl⟩, rfl⟩

/-- **They are ranked in order.** -/
theorem pairwise_ranking : (ranking name candidates).Pairwise (ComesFirst name) := by
  unfold ranking
  rw [List.pairwise_map]
  have ascending := Ascending.pairwise_ofList RankedName.before_strict
  refine (ascending _).imp_of_mem ?_
  intro first second one two before
  unfold ComesFirst
  rw [← (mem_rankedNames.mp one).2, ← (mem_rankedNames.mp two).2]
  exact RankedName.before_iff.mp before

/-- Lists of the same candidates have the same ranking. -/
theorem ranking_congr {others : List String} (same : ∀ candidate, candidate ∈ candidates ↔ candidate ∈ others) :
    ranking name candidates = ranking name others := by
  unfold ranking rankedNames
  rw [Ascending.ofList_congr RankedName.before_strict]
  intro ranked
  simp only [List.mem_filter, List.mem_map, same]

end

/-! ## The first three -/

/-- **Whether a list holds the best suggestions for a name**: at most three eligible candidates in their order and each
once, all others that are eligible come after them, and there are such others only if the list is full. -/
structure Best (name : String) (candidates suggestions : List String) : Prop where
  eligible : ∀ suggestion ∈ suggestions, Eligible name candidates suggestion
  nodup : suggestions.Nodup
  ascending : suggestions.Pairwise (ComesFirst name)
  few : suggestions.length ≤ 3
  others_after : ∀ other, Eligible name candidates other → other ∉ suggestions →
    ∀ suggestion ∈ suggestions, ComesFirst name suggestion other
  others_only_if_full : suggestions.length < 3 → ∀ other, Eligible name candidates other → other ∈ suggestions

/-- A beginning of the ranking comes before the rest of it. -/
theorem comesFirst_of_not_mem_take {name : String} {candidates : List String} {count : Nat} {other suggestion : String}
    (eligible : Eligible name candidates other) (left : other ∉ (ranking name candidates).take count)
    (taken : suggestion ∈ (ranking name candidates).take count) : ComesFirst name suggestion other := by
  have ascending : (ranking name candidates).Pairwise (ComesFirst name) := pairwise_ranking
  have listed := mem_ranking.mpr eligible
  rw [← List.take_append_drop count (ranking name candidates)] at ascending listed
  have dropped := (List.mem_append.mp listed).resolve_left left
  exact (List.pairwise_append.mp ascending).2.2 suggestion taken other dropped

theorem best_take_ranking (name : String) (candidates : List String) :
    Best name candidates ((ranking name candidates).take 3) where
  eligible suggestion taken := mem_ranking.mp (List.mem_of_mem_take taken)
  nodup := pairwise_ranking.take.imp ComesFirst.ne
  ascending := pairwise_ranking.take
  few := List.length_take_le 3 _
  others_after other eligible left suggestion taken := comesFirst_of_not_mem_take eligible left taken
  others_only_if_full := by
    intro short other eligible
    have whole : (ranking name candidates).length ≤ 3 := by
      rw [List.length_take] at short
      omega
    rw [List.take_of_length_le whole]
    exact mem_ranking.mpr eligible

/-- **The suggestions are the best of the candidates**, and they are the same for every list of the same candidates, in
whatever order and however often these stand in it. -/
theorem similarNames_best (name : String) (candidates : List String) :
    Best name candidates (similarNames name candidates) ∧
      ∀ others : List String, (∀ candidate, candidate ∈ candidates ↔ candidate ∈ others) →
        similarNames name others = similarNames name candidates := by
  simp only [similarNames_eq_take]
  refine ⟨best_take_ranking name candidates, ?_⟩
  intro others same
  rw [ranking_congr same]

/-- Two of the names are one edit away from `Numbr` and two are two edits away. Of each two the one with the smaller
bytes comes first, so `umbra` is left out. -/
theorem similarNames_numbr :
    (∀ candidate, candidate ∈ ["Numbers", "Numbré", "Zahl", "Number", "umbra", "Numbré"] ↔
        candidate ∈ ["Number", "umbra", "Numbers", "Zahl", "Numbré"]) ∧
      similarNames "Numbr" ["Numbers", "Numbré", "Zahl", "Number", "umbra", "Numbré"] =
        ["Number", "Numbré", "Numbers"] ∧
      similarNames "Numbr" ["Number", "umbra", "Numbers", "Zahl", "Numbré"] = ["Number", "Numbré", "Numbers"] := by
  have listed : similarNames "Numbr" ["Numbers", "Numbré", "Zahl", "Number", "umbra", "Numbré"] =
      ["Number", "Numbré", "Numbers"] := by decide +kernel
  have same (candidate : String) : candidate ∈ ["Numbers", "Numbré", "Zahl", "Number", "umbra", "Numbré"] ↔
      candidate ∈ ["Number", "umbra", "Numbers", "Zahl", "Numbré"] := by
    simp only [List.mem_cons, List.not_mem_nil, or_false]
    constructor
    · rintro (is | is | is | is | is | is) <;> simp only [is, true_or, or_true]
    · rintro (is | is | is | is | is) <;> simp only [is, true_or, or_true]
  exact ⟨same, listed, ((similarNames_best "Numbr" _).2 _ same).trans listed⟩

end DeclCheck.Text
