import Mathlib.Data.List.Nodup
import Mathlib.Data.Prod.Lex
import Mathlib.Data.String.Basic
import Phrasebook.Proofs.Suggestion.Distance
/-!
# Choosing — the suggestions are the first names in the order of their ranks

The rank of a name is its distance from the target, then the name itself.  The names within the
tolerance, in the order of their ranks and each once, are told from the set of the available names;
the suggestions are the first three of them.
-/
namespace Phrasebook

/-! ## Ranks -/

/-- Nearer names rank first, equally near ones in the order of their characters. -/
def rank (target name : String) : Nat ×ₗ String :=
  toLex (editDistance target.toList name.toList, name)

/-- Is the name near enough to the target to be suggested? -/
def IsNear (target name : String) : Prop :=
  editDistance target.toList name.toList ≤ tolerance target

/-- These are the near ones of the available names, each once, in the order of their ranks. -/
structure Ranks (target : String) (available ranked : List String) : Prop where
  ascending : ranked.Pairwise fun a b => rank target a < rank target b
  mem_iff   : ∀ name, name ∈ ranked ↔ name ∈ available ∧ IsNear target name

namespace Ranks

variable {target : String} {available available' ranked ranked' : List String}

theorem nodup (h : Ranks target available ranked) : ranked.Nodup :=
  h.ascending.imp fun hab heq => hab.ne (congrArg (rank target) heq)

/-- The set of the available names is all that counts. -/
theorem unique (h : Ranks target available ranked) (h' : Ranks target available' ranked')
    (hsame : ∀ name, name ∈ available ↔ name ∈ available') : ranked = ranked' := by
  have hperm : ranked.Perm ranked' := by
    refine (List.perm_ext_iff_of_nodup h.nodup h'.nodup).2 fun name => ?_
    rw [h.mem_iff, h'.mem_iff, hsame]
  exact hperm.eq_of_pairwise (fun _ _ _ _ hab hba => absurd hab hba.asymm) h.ascending h'.ascending

/-- A name that is not among the first few ranks behind all of them, and there are so many. -/
theorem behind_take (h : Ranks target available ranked) {count : Nat} {name : String}
    (hmem : name ∈ ranked) (hleft : name ∉ ranked.take count) :
    (ranked.take count).length = count ∧
      ∀ other ∈ ranked.take count, rank target other < rank target name := by
  have hdrop : name ∈ ranked.drop count := by
    rw [← List.take_append_drop count ranked, List.mem_append] at hmem
    exact hmem.resolve_left hleft
  constructor
  · rw [List.length_take]
    have hlength : 0 < (ranked.drop count).length := List.length_pos_of_mem hdrop
    rw [List.length_drop] at hlength
    omega
  · have hsplit := h.ascending
    rw [← List.take_append_drop count ranked, List.pairwise_append] at hsplit
    exact fun other hother => hsplit.2.2 other hother name hdrop

end Ranks

/-! ## Suggestions -/

theorem nearer_iff {a b : Nat × String} : nearer a b = true ↔ toLex a ≤ toLex b := by
  rw [nearer, Prod.Lex.toLex_le_toLex]
  simp

theorem pairwise_nearer (scored : List (Nat × String)) :
    (scored.mergeSort nearer).Pairwise fun a b => toLex a ≤ toLex b := by
  have htrans : ∀ a b c : Nat × String, nearer a b = true → nearer b c = true →
      nearer a c = true := by
    intro a b c
    rw [nearer_iff, nearer_iff, nearer_iff]
    exact le_trans
  have htotal : ∀ a b : Nat × String, (nearer a b || nearer b a) = true := by
    intro a b
    rw [Bool.or_eq_true, nearer_iff, nearer_iff]
    exact le_total _ _
  exact (List.pairwise_mergeSort htrans htotal scored).imp nearer_iff.1

theorem exists_ranks (target : String) (available : List String) :
    ∃ ranked, Ranks target available ranked ∧
      suggestions target available = ranked.take 3 := by
  let score (name : String) : Nat × String := (editDistance target.toList name.toList, name)
  let near := (available.map score).filter fun s => decide (s.1 ≤ tolerance target)
  let sorted := dropRepeats (near.mergeSort nearer)
  have hmem : ∀ s, s ∈ sorted ↔
      ∃ name, (name ∈ available ∧ IsNear target name) ∧ score name = s := by
    intro s
    rw [mem_dropRepeats, List.mem_mergeSort, List.mem_filter, List.mem_map, decide_eq_true_eq]
    constructor
    · rintro ⟨⟨name, hname, rfl⟩, hnear⟩
      exact ⟨name, ⟨hname, hnear⟩, rfl⟩
    · rintro ⟨name, ⟨hname, hnear⟩, rfl⟩
      exact ⟨⟨name, hname, rfl⟩, hnear⟩
  have hstrict : sorted.Pairwise fun a b => toLex a < toLex b := by
    refine (pairwise_dropRepeats (fun a b hab hba => ?_) (pairwise_nearer near)).imp fun h =>
      lt_of_le_of_ne h.1 fun heq => h.2 (toLex.injective heq)
    exact toLex.injective (le_antisymm hab hba)
  have hrank : ∀ s ∈ sorted, toLex s = rank target s.2 := by
    intro s hs
    obtain ⟨name, -, rfl⟩ := (hmem s).1 hs
    rfl
  refine ⟨sorted.map Prod.snd, ⟨?_, fun name => ?_⟩, by rw [suggestions, List.map_take]⟩
  · rw [List.pairwise_map]
    refine hstrict.imp_of_mem fun ha hb hab => ?_
    rw [← hrank _ ha, ← hrank _ hb]
    exact hab
  · rw [List.mem_map]
    constructor
    · rintro ⟨s, hs, rfl⟩
      obtain ⟨name, hname, rfl⟩ := (hmem s).1 hs
      exact hname
    · exact fun hname => ⟨score name, (hmem _).2 ⟨name, hname, rfl⟩, rfl⟩

/-- **The suggestions are the best that the set of available names has to offer.**  Neither the
order of the names nor how often they are listed makes a difference.  At most three names are
suggested, each once and in the order of their ranks, all of them near; and a near name is left out
only behind three others.  How near a name is, is counted by the fewest edits. -/
theorem suggestions_nearest (target : String) {available available' : List String}
    (hsame : ∀ name, name ∈ available ↔ name ∈ available') :
    let chosen := suggestions target available
    suggestions target available' = chosen ∧
    chosen.length ≤ 3 ∧ chosen.Nodup ∧
    (∀ name ∈ chosen, name ∈ available ∧ IsNear target name) ∧
    chosen.Pairwise (fun a b => rank target a < rank target b) ∧
    (∀ name ∈ available, IsNear target name → name ∉ chosen →
      chosen.length = 3 ∧ ∀ other ∈ chosen, rank target other < rank target name) ∧
    ∀ name : String, IsLeast {n | Edits n target.toList name.toList}
      (editDistance target.toList name.toList) := by
  intro chosen
  obtain ⟨ranked, hranks, htake⟩ : ∃ ranked, Ranks target available ranked ∧
    chosen = ranked.take 3 := exists_ranks target available
  obtain ⟨ranked', hranks', htake'⟩ := exists_ranks target available'
  rw [htake', htake, ← hranks.unique hranks' hsame]
  have hsub := List.take_sublist 3 ranked
  refine ⟨rfl, List.length_take_le 3 ranked, hranks.nodup.sublist hsub,
    fun name hname => (hranks.mem_iff name).1 (hsub.subset hname), hranks.ascending.sublist hsub,
    fun name hname hnear hleft => ?_, fun name => editDistance_isLeast _ _⟩
  exact hranks.behind_take ((hranks.mem_iff name).2 ⟨hname, hnear⟩) hleft

/-- Of four near names the farthest is left out. -/
theorem suggestions_nearest_hims :
    let available := ["is", "his", "him", "his", "himself", "him2"]
    let available' := ["him2", "himself", "him", "is", "his"]
    (∀ name, name ∈ available ↔ name ∈ available') ∧
      suggestions "hims" available = ["him", "him2", "his"] ∧
      suggestions "hims" available' = ["him", "him2", "his"] ∧
      IsNear "hims" "is" ∧ rank "hims" "his" < rank "hims" "is" := by
  intro available available'
  have hsame : ∀ name, name ∈ available ↔ name ∈ available' := by
    intro name
    simp only [available, available', List.mem_cons, List.not_mem_nil]
    tauto
  have hranks : Ranks "hims" available ["him", "him2", "his", "is"] := by
    have hinto : ∀ name ∈ ["him", "him2", "his", "is"],
      name ∈ available ∧ IsNear "hims" name := by unfold IsNear; decide
    have hback : ∀ name ∈ available, IsNear "hims" name →
      name ∈ ["him", "him2", "his", "is"] := by unfold IsNear; decide
    exact ⟨by unfold rank; decide, fun name => ⟨hinto name, fun h => hback name h.1 h.2⟩⟩
  have hchosen : suggestions "hims" available = ["him", "him2", "his"] := by
    obtain ⟨ranked, hranked, htake⟩ := exists_ranks "hims" available
    rw [htake, hranked.unique hranks fun _ => Iff.rfl]
    rfl
  have hnear : IsNear "hims" "is" := by unfold IsNear; decide
  obtain ⟨hset, -, -, -, -, hleft, -⟩ := suggestions_nearest "hims" hsame
  refine ⟨hsame, hchosen, hset.trans hchosen, hnear, ?_⟩
  rw [hchosen] at hleft
  exact (hleft "is" (by decide) hnear (by decide)).2 "his" (by decide)

end Phrasebook
