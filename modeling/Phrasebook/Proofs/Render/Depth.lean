import Mathlib.Data.Finset.Card
import Phrasebook.Proofs.Render.Mentions
/-!
# Nesting — how deep keys render inside each other

Only the key that is looked up and the keys among the values are ever pushed, and none of them
twice.  So the stack is never higher than the number of these keys, and a limit that is not below
that number is never what refuses a key: where a stack is that high, it holds all of them.
-/
namespace Phrasebook

/-- How many different keys a lookup may render. -/
def keyCount (key : String) (args : List Value) : Nat := (lookupKeys key args).toFinset.card

/-- The stacks that a rendering goes through.  It begins with no key, each event of opening has the
stack that it makes, and closing takes the innermost key off. -/
inductive Rendering.GoesThrough (r : Rendering) : List String → Prop
  | start : r.GoesThrough []
  | opened {keys : List String} : .opened keys ∈ r.trace → r.GoesThrough keys
  | closed {key : String} {keys : List String} : r.GoesThrough (key :: keys) → r.GoesThrough keys

/-! ## Stacks of different keys -/

/-- Different keys out of some, and no more of them than may be. -/
structure WithinKeys (known : List String) (limit : Nat) (keys : List String) : Prop where
  nodup  : keys.Nodup
  subset : keys ⊆ known
  length : keys.length ≤ limit

namespace WithinKeys

variable {known keys : List String} {limit : Nat} {key : String}

theorem nil : WithinKeys known limit [] := ⟨List.nodup_nil, List.nil_subset _, Nat.zero_le _⟩

theorem cons (h : WithinKeys known limit keys) (hkey : key ∈ known) (hroom : keys.length < limit)
    (hnew : key ∉ keys) : WithinKeys known limit (key :: keys) :=
  ⟨List.nodup_cons.2 ⟨hnew, h.nodup⟩, List.cons_subset.2 ⟨hkey, h.subset⟩, hroom⟩

theorem tail (h : WithinKeys known limit (key :: keys)) : WithinKeys known limit keys :=
  ⟨(List.nodup_cons.1 h.nodup).2, (List.cons_subset.1 h.subset).2, Nat.le_of_succ_le h.length⟩

end WithinKeys

theorem length_le_card {known keys : List String} (hkeys : keys.Nodup) (h : keys ⊆ known) :
    keys.length ≤ known.toFinset.card := by
  rw [← List.toFinset_card_of_nodup hkeys]
  refine Finset.card_le_card fun key hkey => ?_
  rw [List.mem_toFinset] at hkey ⊢
  exact h hkey

/-! ## The stacks of a rendering -/

theorem Scene.render_opened {scene : Scene} {limit : Nat} {source : Source} {key : String}
    {keys : List String} (h : .opened keys ∈ (scene.render limit source key).trace) :
    WithinKeys (lookupKeys key scene.args) limit keys := by
  have hstart : [].length < limit → key ∉ [] → WithinKeys (lookupKeys key scene.args) limit [key] :=
    fun hroom hnew => .cons .nil List.mem_cons_self hroom hnew
  have hfollows : Render.Follows (WithinKeys (lookupKeys key scene.args) limit) ⟨limit, []⟩
      (Render.renderKey scene limit key) (Stackless.renderKey scene limit [] key) :=
    Render.follows_renderKey
      (fun keys nested hkeys hnested hroom hnew =>
        hkeys.cons (mem_lookupKeys_of_mem hnested) hroom hnew)
      limit [] key (Nat.le_refl _) hstart
  exact (hfollows.opened ⟨⟨limit, []⟩, source, []⟩ rfl keys (List.mem_reverse.1 h)).resolve_left
    List.not_mem_nil

theorem Scene.withinKeys_of_goesThrough {scene : Scene} {limit : Nat} {source : Source}
    {key : String} {keys : List String} (h : (scene.render limit source key).GoesThrough keys) :
    WithinKeys (lookupKeys key scene.args) limit keys := by
  induction h with
  | start => exact .nil
  | opened h => exact render_opened h
  | closed _ ih => exact ih.tail

/-! ## Limits -/

namespace Stackless

/-- Limits that leave room for all keys are the same limit. -/
theorem renderKey_congr_limit {scene : Scene} {known : List String} {m m' : Nat}
    (hargs : ∀ key, .key key ∈ scene.args → key ∈ known) (hm : known.toFinset.card ≤ m)
    (hm' : known.toFinset.card ≤ m') (above : List String) (key : String) (hkey : key ∈ known)
    (hnodup : above.Nodup) (hsubset : above ⊆ known) :
    renderKey scene m above key = renderKey scene m' above key := by
  by_cases hmem : key ∈ above
  · rw [renderKey_of_refused (.inr hmem), renderKey_of_refused (.inr hmem)]
  · have hnodup' : (key :: above).Nodup := List.nodup_cons.2 ⟨hmem, hnodup⟩
    have hsubset' : key :: above ⊆ known := List.cons_subset.2 ⟨hkey, hsubset⟩
    -- a key that is not above yet is one more of the known keys
    have hroom : above.length < known.toFinset.card := length_le_card hnodup' hsubset'
    rw [renderKey_of_taken (hroom.trans_le hm) hmem, renderKey_of_taken (hroom.trans_le hm') hmem]
    refine renderBody_alike isCongruence_eq (fun _ _ => rfl) fun nested hnested => ?_
    exact renderKey_congr_limit hargs hm hm' (key :: above) nested
      (hargs nested (Scene.mem_of_refers hnested)) hnodup' hsubset'
termination_by known.toFinset.card - above.length
decreasing_by
  rw [List.length_cons]
  omega

end Stackless

/-- **The stack holds each key once, and no more keys than there are.**  With a limit of at least
that many keys, a lookup does not depend on the limit. -/
theorem Store.lookupWith_depth (st : Store) (key : String) (subject : Subject)
    (args : List Value) :
    (∀ keys, (st.lookupWith key subject args).GoesThrough keys →
      keys.Nodup ∧ keys.length ≤ min st.maxDepth (keyCount key args)) ∧
    ∀ m m', keyCount key args ≤ m → keyCount key args ≤ m' →
      ({ st with maxDepth := m }.lookupWith key subject args).text =
          ({ st with maxDepth := m' }.lookupWith key subject args).text ∧
        ({ st with maxDepth := m }.lookupWith key subject args).source =
          ({ st with maxDepth := m' }.lookupWith key subject args).source := by
  refine ⟨fun keys hkeys => ?_, fun m m' hm hm' => ?_⟩
  · have hwithin : WithinKeys (lookupKeys key args) st.maxDepth keys :=
      Scene.withinKeys_of_goesThrough hkeys
    exact ⟨hwithin.nodup, le_min hwithin.length (length_le_card hwithin.nodup hwithin.subset)⟩
  · have hlimit : Stackless.renderKey (st.scene subject args) m [] key =
        Stackless.renderKey (st.scene subject args) m' [] key :=
      Stackless.renderKey_congr_limit (fun nested => mem_lookupKeys_of_mem) hm hm' [] key
        List.mem_cons_self List.nodup_nil (List.nil_subset _)
    have hresult := (st.scene subject args).render_stackless m st.source key
    rw [hlimit, ← (st.scene subject args).render_stackless m' st.source key] at hresult
    exact Prod.mk.inj hresult

/-- Keys that mention each other, in a circle. -/
theorem Store.lookupWith_depth_cycle :
    let args : List Value := [.key "b", .key "a"]
    let entries : Entries := ((∅ : Entries).insert "a" (.single ⟨[.positional 2]⟩)).insert "b"
      (.single ⟨[.text "x", .positional 3]⟩)
    let st : Store := { source := .cycle #[], entries := entries }
    (st.lookupWith "a" .none args).GoesThrough ["b", "a"] ∧
      ["b", "a"].length ≤ min st.maxDepth (keyCount "a" args) ∧
      keyCount "a" args ≤ 2 ∧ keyCount "a" args ≤ 5 ∧
      ({ st with maxDepth := 2 }.lookupWith "a" .none args).text =
        ({ st with maxDepth := 5 }.lookupWith "a" .none args).text := by
  intro args entries st
  obtain ⟨hstack, hlimit⟩ := lookupWith_depth st "a" .none args
  have hopened : (st.lookupWith "a" .none args).GoesThrough ["b", "a"] :=
    .opened (by decide +kernel)
  have hcount : keyCount "a" args = 2 := by decide
  have htwo : keyCount "a" args ≤ 2 := hcount.le
  have hfive : keyCount "a" args ≤ 5 := htwo.trans (by decide)
  exact ⟨hopened, (hstack ["b", "a"] hopened).2, htwo, hfive, (hlimit 2 5 htwo hfive).1⟩

end Phrasebook
