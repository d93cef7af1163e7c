import Mathlib.Logic.Relation
import Phrasebook.Proofs.Render.Depth
import Phrasebook.Proofs.Render.Dispatches
/-!
# Keys among the values — as good as the texts that they stand for

A key that is given as a value is rendered wherever it is mentioned, with other keys above it each
time.  Where no key refers back to itself, the keys above it are none that it could still come to,
so it has the same text everywhere: the text of its own lookup.
-/
namespace Phrasebook

open Relation

/-- The value with its text in place of a key. -/
def Value.rendered (text : String → String) : Value → Value
  | .key path => .str (text path)
  | value     => value

/-- No chain of references from the key runs into a circle. -/
def Scene.IsAcyclicFrom (scene : Scene) (key : String) : Prop :=
  ∀ reached, ReflTransGen scene.Refers key reached → ¬ TransGen scene.Refers reached reached

/-- Keys that stand for no groups and never run into a circle, all keys among the values with them,
and a limit that has room for all of them. -/
structure Scene.IsSettled (scene : Scene) (known : List String) (limit : Nat) : Prop where
  args    : ∀ key, .key key ∈ scene.args → key ∈ known
  single  : ∀ key ∈ known, scene.group? key = none
  acyclic : ∀ key ∈ known, scene.IsAcyclicFrom key
  room    : known.toFinset.card ≤ limit

/-- Different keys, all known, from which chains of references lead to this one. -/
structure LeadTo (scene : Scene) (known above : List String) (key : String) : Prop where
  nodup  : above.Nodup
  subset : above ⊆ known
  leads  : ∀ outer ∈ above, TransGen scene.Refers outer key

theorem leadTo_nil {scene : Scene} {known : List String} {key : String} :
    LeadTo scene known [] key :=
  ⟨List.nodup_nil, List.nil_subset _, List.forall_mem_nil _⟩

namespace Scene.IsSettled

variable {scene : Scene} {known above : List String} {limit : Nat} {key nested : String}

theorem not_mem (hscene : scene.IsSettled known limit) (hkey : key ∈ known)
    (h : LeadTo scene known above key) : key ∉ above :=
  fun hmem => hscene.acyclic key hkey key .refl (h.leads key hmem)

/-- One more key above, and one reference further. -/
theorem leadTo_cons (hscene : scene.IsSettled known limit) (hkey : key ∈ known)
    (h : LeadTo scene known above key) (href : scene.Refers key nested) :
    LeadTo scene known (key :: above) nested where
  nodup  := List.nodup_cons.2 ⟨hscene.not_mem hkey h, h.nodup⟩
  subset := List.cons_subset.2 ⟨hkey, h.subset⟩
  leads  := List.forall_mem_cons.2 ⟨.single href, fun outer hmem => (h.leads outer hmem).tail href⟩

theorem length_lt (hscene : scene.IsSettled known limit) (hkey : key ∈ known)
    (h : LeadTo scene known above key) : above.length < known.toFinset.card :=
  length_le_card (List.nodup_cons.2 ⟨hscene.not_mem hkey h, h.nodup⟩)
    (List.cons_subset.2 ⟨hkey, h.subset⟩)

/-- Neither the limit nor the keys above are in the way of a key that they lead to. -/
theorem renderKey_eq (hscene : scene.IsSettled known limit) (hkey : key ∈ known)
    (h : LeadTo scene known above key) : Stackless.renderKey scene limit above key =
      Stackless.renderBody scene (Stackless.renderKey scene limit (key :: above)) key :=
  Stackless.renderKey_of_taken ((hscene.length_lt hkey h).trans_le hscene.room)
    (hscene.not_mem hkey h) scene

end Scene.IsSettled

namespace Stackless

variable {scene : Scene} {known : List String} {limit : Nat}

/-- Below keys that lead to it, a key is rendered alike, whichever they are. -/
theorem renderKey_of_leadTo (hscene : scene.IsSettled known limit) (above above' : List String)
    (key : String) (hkey : key ∈ known) (h : LeadTo scene known above key)
    (h' : LeadTo scene known above' key) :
    Silently (renderKey scene limit above key) (renderKey scene limit above' key) := by
  have hroom : above.length < known.toFinset.card := hscene.length_lt hkey h
  rw [hscene.renderKey_eq hkey h, hscene.renderKey_eq hkey h']
  refine renderBody_alike isCongruence_silently
    (silently_draw_of_no_group (hscene.single key hkey)) fun nested href => ?_
  exact renderKey_of_leadTo hscene (key :: above) (key :: above') nested
    (hscene.args nested (Scene.mem_of_refers href)) (hscene.leadTo_cons hkey h href)
    (hscene.leadTo_cons hkey h' href)
termination_by known.toFinset.card - above.length
decreasing_by
  rw [List.length_cons]
  omega

theorem callerValue?_map (f : Value → Value) (args : List Value) (position : Nat) :
    callerValue? (args.map f) position = (callerValue? args position).map f := by
  unfold callerValue?
  split
  · rfl
  · exact List.getElem?_map

theorem callerValue?_rendered_of_no_key {text : String → String} {position : Nat}
    (h : scene.keyAt? position = none) :
    callerValue? (scene.args.map (Value.rendered text)) position =
      callerValue? scene.args position := by
  rw [callerValue?_map]
  cases hvalue : callerValue? scene.args position with
  | none => rfl
  | some value =>
    cases value with
    | key key => cases h.symm.trans (Scene.keyAt?_eq_some.2 hvalue)
    | int | float | bool | str => rfl

theorem valueAt_rendered_of_key {text : String → String} {position : Nat} {key : String}
    (h : scene.keyAt? position = some key) (reference : String → DrawM String) :
    valueAt (scene.given (scene.args.map (Value.rendered text))) reference position =
      pure (.str (text key)) := by
  have hvalue := Scene.keyAt?_eq_some.1 h
  have hposition : position ≠ 1 := by
    rintro rfl
    cases hvalue
  rw [valueAt, if_neg hposition, Scene.given, callerValue?_map, hvalue]
  rfl

/-- With the text of each key in its place, a key is rendered as before. -/
theorem renderKey_rendered (hscene : scene.IsSettled known limit) {text : String → String}
    (htext : ∀ key ∈ known, renderKey scene limit [] key = pure (text key)) {key : String}
    (hkey : key ∈ known) : Silently (renderKey scene limit [] key)
      (renderKey (scene.given (scene.args.map (Value.rendered text))) limit [] key) := by
  have hlimit : 0 < limit := (Nat.zero_le _).trans_lt
    ((hscene.length_lt hkey leadTo_nil).trans_le hscene.room)
  rw [renderKey_of_taken hlimit List.not_mem_nil, renderKey_of_taken hlimit List.not_mem_nil]
  refine renderBody_related isCongruence_silently
    (silently_draw_of_no_group (hscene.single key hkey)) fun n hn => ?_
  refine valueAt_related isCongruence_silently callerValue?_rendered_of_no_key
    fun nested hnested => ?_
  -- inside the key, the other one has the text that it has alone
  have href : scene.Refers key nested := ⟨n, hn, hnested⟩
  have hknown : nested ∈ known := hscene.args nested (Scene.mem_of_refers href)
  obtain ⟨inside, hinside, halone⟩ := renderKey_of_leadTo hscene [key] [] nested hknown
    (hscene.leadTo_cons hkey leadTo_nil href) leadTo_nil
  rw [hinside, ← halone, htext nested hknown, valueAt_rendered_of_key hnested]
  exact isCongruence_silently.map _ (isCongruence_silently.ofPure _)

end Stackless

/-- **A key among the values is as good as its text.**  No function is ever given a key.  And where
no key of a lookup stands for a group or runs into a circle, and the limit leaves room for them all,
the lookup has the same text with each key among its values replaced by the text of its own lookup,
and draws as little. -/
theorem Store.lookupWith_rendered (st : Store) (key : String) (subject : Subject)
    (args : List Value) :
    (∀ name values result,
      .dispatched name values result ∈ (st.lookupWith key subject args).trace →
        ∀ nested, .key nested ∉ values) ∧
    ((∀ k ∈ lookupKeys key args, (st.scene subject args).group? k = none ∧
        (st.scene subject args).IsAcyclicFrom k) →
      keyCount key args ≤ st.maxDepth →
      let text := fun k => (st.lookupWith k subject args).text
      let rendered := st.lookupWith key subject (args.map (Value.rendered text))
      (st.lookupWith key subject args).text = rendered.text ∧
        (st.lookupWith key subject args).source = st.source ∧ rendered.source = st.source) := by
  refine ⟨fun name values result h => (Scene.explains_of_mem_trace h).2.2, ?_⟩
  intro hkeys hroom text rendered
  have hscene : (st.scene subject args).IsSettled (lookupKeys key args) st.maxDepth :=
    ⟨fun nested => mem_lookupKeys_of_mem, fun k hk => (hkeys k hk).1, fun k hk => (hkeys k hk).2,
      hroom⟩
  have htext : ∀ k ∈ lookupKeys key args,
      Stackless.renderKey (st.scene subject args) st.maxDepth [] k = pure (text k) := by
    intro k hk
    obtain ⟨alone, halone, -⟩ :=
      Stackless.renderKey_of_leadTo hscene [] [] k hk leadTo_nil leadTo_nil
    have hvalue : text k = alone := (Scene.render_of_pure halone st.source).1
    rw [halone, hvalue]
  obtain ⟨value, hkey, hgiven⟩ := Stackless.renderKey_rendered hscene htext List.mem_cons_self
  obtain ⟨hvalue, hsource⟩ := Scene.render_of_pure hkey st.source
  obtain ⟨hvalue', hsource'⟩ := Scene.render_of_pure hgiven st.source
  exact ⟨hvalue.trans hvalue'.symm, hsource, hsource'⟩

/-- A key that is mentioned twice, once in a call. -/
theorem Store.lookupWith_rendered_call :
    let a : Entry := .single ⟨[.positional 2, .call ⟨"f", [.positional 2]⟩]⟩
    let entries : Entries := ((∅ : Entries).insert "a" a).insert "b" (.single ⟨[.text "x"]⟩)
    let st : Store := { source := .cycle #[], entries := entries }
    (∀ k ∈ lookupKeys "a" [.key "b"], (st.scene .none [.key "b"]).group? k = none ∧
        (st.scene .none [.key "b"]).IsAcyclicFrom k) ∧
      keyCount "a" [.key "b"] ≤ st.maxDepth ∧
      (st.lookupWith "a" .none [.key "b"]).text = (st.lookupWith "a" .none
        [.str (st.lookupWith "b" .none [.key "b"]).text]).text := by
  intro a entries st
  have hget : ∀ entry, st.get? "b" = some entry → entry = .single ⟨[.text "x"]⟩ := by
    intro entry h
    rw [get?, Std.TreeMap.getElem?_insert_self, Option.some.injEq] at h
    exact h.symm
  have hrefers : ∀ key nested, (st.scene .none [.key "b"]).Refers key nested →
      key ≠ "b" ∧ nested = "b" := by
    intro key nested href
    refine ⟨?_, by simpa [scene] using Scene.mem_of_refers href⟩
    rintro rfl
    obtain ⟨position, ⟨entry, hentry, e, he, hposition⟩, -⟩ := href
    rw [hget entry hentry, Entry.expressions, List.mem_singleton] at he
    rw [he] at hposition
    exact List.not_mem_nil hposition
  have hkeys : ∀ k ∈ lookupKeys "a" [.key "b"], (st.scene .none [.key "b"]).group? k = none ∧
      (st.scene .none [.key "b"]).IsAcyclicFrom k := by
    refine fun k hk => ⟨?_, fun reached _ hcircle => ?_⟩
    · obtain rfl | rfl : k = "a" ∨ k = "b" := by simpa [lookupKeys, Value.key?] using hk
      · decide +kernel
      · decide +kernel
    · obtain ⟨_, hfirst, -⟩ := TransGen.head'_iff.1 hcircle
      obtain ⟨_, -, hlast⟩ := TransGen.tail'_iff.1 hcircle
      exact (hrefers _ _ hfirst).1 (hrefers _ _ hlast).2
  have hroom : keyCount "a" [.key "b"] ≤ st.maxDepth := by decide
  exact ⟨hkeys, hroom, ((lookupWith_rendered st "a" .none [.key "b"]).2 hkeys hroom).1⟩

end Phrasebook
