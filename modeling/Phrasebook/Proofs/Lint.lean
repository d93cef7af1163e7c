import Mathlib.Data.String.Basic
import Phrasebook.Proofs.Builtin.Registrations
import Phrasebook.Proofs.Render.Dispatches
import Phrasebook.Store.Load
/-!
# Lint — calls without a function, before and while a message renders

Lint asks all tables about every name that an entry calls; a dispatch asks only the table of the
subject.  So a name is reported if its dispatch finds nothing for any subject, and where nothing is
reported, a dispatch finds nothing only for want of the right subject.  There is one more function
that a message may need, though no call names it: the one whose answer `_1` stands for.
-/
namespace Phrasebook

/-! ## Names without a function -/

namespace Registry

variable {r : Registry} {name : String} {language : Language}

theorem exists_subject (kind : SubjectKind) : ∃ subject : Subject, subject.kind = kind := by
  cases kind with
  | none => exact ⟨.none, rfl⟩
  | bool => exact ⟨.bool true, rfl⟩
  | character => exact ⟨.character default, rfl⟩
  | item => exact ⟨.item default, rfl⟩

/-- No table knows a name exactly if its dispatch finds nothing for any subject. -/
theorem hasAny_eq_false_iff_dispatch : r.hasAny name language = false ↔
    ∀ subject args, r.dispatch name args subject language = .unknown := by
  rw [hasAny_eq_false]
  constructor
  · intro h subject args
    exact dispatch_eq_unknown_iff_has.2 (h subject.kind)
  · intro h kind
    obtain ⟨subject, rfl⟩ := exists_subject kind
    exact dispatch_eq_unknown_iff_has.1 (h subject [])

end Registry

/-! ## The report on an entry -/

theorem mem_ascending {texts : List String} {text : String} :
    text ∈ ascending texts ↔ text ∈ texts := by
  simp [ascending, Std.TreeSet.mem_toList, Std.TreeSet.mem_ofList]

theorem pairwise_ascending (texts : List String) : (ascending texts).Pairwise (· < ·) :=
  Std.TreeSet.ordered_toList.imp compare_lt_iff_lt.1

theorem Registry.mem_unknownIn {r : Registry} {language : Language} {e : Entry} {name : String} :
    name ∈ r.unknownIn language e ↔ e.Calls name ∧ r.hasAny name language = false := by
  rw [Registry.unknownIn, mem_ascending, List.mem_filter, Entry.mem_names_iff, Bool.not_eq_true']

theorem names_lintEntry (r : Registry) (language : Language) (key : String) (e : Entry) :
    (lintEntry r language key e).map LintWarning.name = r.unknownIn language e := by
  rw [lintEntry, List.map_map]
  exact List.map_id _

/-- **Lint agrees with dispatch**: it reports the names that the entry calls and that lead to no
function for any subject, in ascending order, each once. -/
theorem lintEntry_names (r : Registry) (language : Language) (key : String) (e : Entry) :
    (∀ w ∈ lintEntry r language key e, w.key = key) ∧
      (∀ name, name ∈ (lintEntry r language key e).map LintWarning.name ↔
        e.Calls name ∧ ∀ subject args, r.dispatch name args subject language = .unknown) ∧
      ((lintEntry r language key e).map LintWarning.name).Pairwise (· < ·) := by
  rw [names_lintEntry]
  refine ⟨fun w hw => ?_, fun name => ?_, pairwise_ascending _⟩
  · obtain ⟨name, _, rfl⟩ := List.mem_map.1 hw
    rfl
  · rw [Registry.mem_unknownIn, Registry.hasAny_eq_false_iff_dispatch]

/-! ## Stores without findings -/

theorem Store.lint_eq_nil {st : Store} : st.lint = [] ↔ ∀ key entry, st.get? key = some entry →
    ∀ name, entry.Calls name → st.registry.hasAny name st.language = true := by
  have hentry : ∀ key e, lintEntry st.registry st.language key e = [] ↔
      ∀ name, e.Calls name → st.registry.hasAny name st.language = true := by
    intro key e
    rw [← List.map_eq_nil_iff, names_lintEntry, List.eq_nil_iff_forall_not_mem]
    simp only [Registry.mem_unknownIn, not_and, Bool.not_eq_false]
  unfold lint
  rw [List.flatMap_eq_nil_iff]
  constructor
  · intro h key e he
    exact (hentry key e).1 (h (key, e) (Std.TreeMap.mem_toList_iff_getElem?_eq_some.2 he))
  · rintro h ⟨key, e⟩ hmem
    exact (hentry key e).2 (h key e (Std.TreeMap.mem_toList_iff_getElem?_eq_some.1 hmem))

/-- A call by the name found no function. -/
def Rendering.Misses (r : Rendering) (name : String) (values : List Value) : Prop :=
  .dispatched name values .unknown ∈ r.trace

theorem Store.hasAny_or_addressee_of_misses {st : Store} (hlint : st.lint = []) {subject : Subject}
    {args values : List Value} {key name : String}
    (h : (st.lookupWith key subject args).Misses name values) :
    st.registry.hasAny name st.language = true ∨
      subject.addressee? = some name ∧ values = [] := by
  obtain ⟨-, ⟨key', e, he, hcalls⟩ | haddressee, -⟩ := Scene.explains_of_mem_trace h
  · exact .inl (lint_eq_nil.1 hlint key' e he name hcalls)
  · exact .inr haddressee

/-- A store with one message, which is what `_1` stands for. -/
def Store.ofAddressee (registry : Registry) (language : Language) : Store :=
  { source := .cycle #[], registry := registry, language := language,
    entries := (∅ : Entries).insert "core.locale.a" (.single ⟨[.positional 1]⟩) }

theorem Store.lint_ofAddressee (registry : Registry) (language : Language) :
    (ofAddressee registry language).lint = [] := by
  refine lint_eq_nil.2 fun key e he name hcalls => ?_
  have hsingle : e = .single ⟨[.positional 1]⟩ := by
    rw [get?, ofAddressee, Std.TreeMap.getElem?_insert] at he
    split at he
    · exact (Option.some.inj he).symm
    · simp at he
  obtain ⟨x, hx, node, hnode, hcalls⟩ := hcalls
  subst hsingle
  rw [Entry.expressions, List.mem_singleton] at hx
  subst hx
  rw [List.mem_singleton.1 hnode] at hcalls
  exact hcalls.elim

namespace Render

theorem addressee_of_some {scene : Scene} {name : String}
    (h : scene.subject.addressee? = some name) :
    addressee scene = Value.str <$> dispatch scene name [] := by
  unfold addressee
  split <;> rename_i hsubject <;> rw [hsubject] at h <;> cases h <;> rfl

theorem trace_evalExpression_addressee {scene : Scene} {name : String}
    (h : scene.subject.addressee? = some name) (reference : String → RenderM String)
    (state : State) :
    (evalExpression scene reference ⟨[.positional 1]⟩ state).2.trace =
      .dispatched name [] (scene.registry.dispatch name [] scene.subject scene.language) ::
        state.trace := by
  have hnode : evalNode scene reference (.positional 1) =
      Value.display <$> Value.str <$> dispatch scene name [] := by
    rw [← addressee_of_some h]
    rfl
  rw [evalExpression, List.mapM_cons, hnode]
  rfl

end Render

theorem Store.misses_ofAddressee {registry : Registry} {language : Language} {subject : Subject}
    {name : String} (hsubject : subject.addressee? = some name)
    (hname : registry.hasAny name language = false) :
    ((ofAddressee registry language).lookupWith "core.locale.a" subject []).Misses name [] := by
  have hunknown : registry.dispatch name [] subject language = .unknown :=
    Registry.hasAny_eq_false_iff_dispatch.1 hname subject []
  have hentry : Scene.entry? ((ofAddressee registry language).scene subject []) "core.locale.a" =
      some (.single ⟨[.positional 1]⟩) := Std.TreeMap.getElem?_insert_self
  rw [Rendering.Misses, ← hunknown, ← List.mem_reverse]
  show _ ∈ (Render.renderKey ((ofAddressee registry language).scene subject []) (15 + 1)
    "core.locale.a" ⟨⟨16, []⟩, .cycle #[], []⟩).2.trace.reverse.reverse
  rw [List.reverse_reverse, Render.renderKey,
    Render.under_of_push _ (Render.push_empty (by decide) "core.locale.a"),
    Render.renderBody_single hentry]
  show _ ∈ (Render.evalExpression _ _ _ _).2.trace
  rw [Render.trace_evalExpression_addressee hsubject]
  exact List.mem_cons_self

/-- **Where lint finds nothing, a rendering misses a function that some table knows, or the one
behind `_1`.**  So no rendering misses a function that no table knows exactly if some table knows
the one behind `_1`, if there is one. -/
theorem Store.misses_of_lint_nil (registry : Registry) (language : Language) (subject : Subject) :
    (∀ st : Store, st.registry = registry → st.language = language → st.lint = [] →
      ∀ key args name values, (st.lookupWith key subject args).Misses name values →
        registry.hasAny name language = true ∨ subject.addressee? = some name ∧ values = []) ∧
      ((∀ st : Store, st.registry = registry → st.language = language → st.lint = [] →
        ∀ key args name values, (st.lookupWith key subject args).Misses name values →
          registry.hasAny name language = true) ↔
        ∀ name, subject.addressee? = some name → registry.hasAny name language = true) := by
  have hclean : ∀ st : Store, st.registry = registry → st.language = language → st.lint = [] →
      ∀ key args name values, (st.lookupWith key subject args).Misses name values →
        registry.hasAny name language = true ∨ subject.addressee? = some name ∧ values = [] := by
    rintro st rfl rfl hlint key args name values h
    exact hasAny_or_addressee_of_misses hlint h
  refine ⟨hclean, fun h name hname => ?_, fun h st hr hl hlint key args name values hmiss => ?_⟩
  · by_contra hnone
    have hunknown : registry.hasAny name language = false := Bool.eq_false_iff.2 hnone
    exact hnone (h (ofAddressee registry language) rfl rfl (lint_ofAddressee registry language) _ _
      name [] (misses_ofAddressee hname hunknown))
  · rcases hclean st hr hl hlint key args name values hmiss with hknown | ⟨haddressee, -⟩
    · exact hknown
    · exact h name haddressee

/-- A message that calls nothing, in a store without functions. -/
theorem Store.lint_overlooks_addressee :
    let st := (Store.loadText { source := .cycle #[0], registry := .empty } "t.hcl"
      "locale \x7b a = \"$\x7b_1\x7d\" \x7d").store
    st.lint = [] ∧ (st.lookup "core.locale.a" .none).text = "<unknown function (you)>" ∧
      (st.lookup "core.locale.a" .none).Misses "you" [] ∧
      st.registry.hasAny "you" st.language = false := by
  unfold Rendering.Misses
  decide +kernel

end Phrasebook
