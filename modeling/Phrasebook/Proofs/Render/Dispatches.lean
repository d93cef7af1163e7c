import Phrasebook.Proofs.Render.Mentions
import Phrasebook.Proofs.Template.Calls
/-!
# Dispatches — where the calls of a rendering come from

A rendering dispatches a name for one of two reasons: a message of the scene calls it, or `_1`
stands for its answer.  In both cases the outcome is what the tables say, and no value that the
function is given is a key: keys are rendered on the way.
-/
namespace Phrasebook

/-- The function whose answer `_1` stands for, unless it stands for a truth value. -/
def Subject.addressee? : Subject → Option String
  | .bool _      => Option.none
  | .none        => some "you"
  | .character _ => some "name"
  | .item _      => some "name"

def Scene.Calls (name : String) (scene : Scene) : Prop :=
  ∃ key entry, scene.entry? key = some entry ∧ entry.Calls name

def Scene.Explains (scene : Scene) : Render.Event → Prop
  | .dispatched name values result =>
    result = scene.registry.dispatch name values scene.subject scene.language ∧
      (scene.Calls name ∨ scene.subject.addressee? = some name ∧ values = []) ∧
      ∀ key, .key key ∉ values
  | _ => True

namespace Render

/-- Whatever `x` adds to the trace, the scene explains. -/
def Adds {α : Type} (scene : Scene) (x : RenderM α) : Prop :=
  ∀ state, ∀ event ∈ (x state).2.trace, event ∈ state.trace ∨ scene.Explains event

section

variable {α β : Type} {scene : Scene}

theorem adds_pure (a : α) : Adds scene (pure a) := fun _ _ h => .inl h

theorem Adds.bind {x : RenderM α} {f : α → RenderM β} (hx : Adds scene x)
    (hf : ∀ state, Adds scene (f (x state).1)) : Adds scene (x >>= f) := by
  intro state event h
  rw [bind_apply] at h
  rcases hf state _ event h with h | h
  · exact hx state event h
  · exact .inr h

theorem Adds.map {x : RenderM α} (f : α → β) (h : Adds scene x) : Adds scene (f <$> x) :=
  h.bind fun _ => adds_pure _

theorem Adds.mapM {f : α → RenderM β} : ∀ {as : List α}, (∀ a ∈ as, Adds scene (f a)) →
    Adds scene (as.mapM f)
  | [], _ => by
    rw [List.mapM_nil]
    exact adds_pure []
  | a :: as, h => by
    rw [List.forall_mem_cons] at h
    rw [List.mapM_cons]
    exact h.1.bind fun _ => (Adds.mapM h.2).bind fun _ => adds_pure _

theorem adds_note (event : Event) (h : scene.Explains event) : Adds scene (note event) := by
  intro state event' hmem
  rcases List.mem_cons.1 hmem with rfl | hmem
  · exact .inr h
  · exact .inl hmem

theorem adds_draw (size : Nat) : Adds scene (draw size) := by
  intro state event hmem
  rcases List.mem_cons.1 hmem with rfl | hmem
  · exact .inr trivial
  · exact .inl hmem

theorem adds_dispatch {name : String} {values : List Value}
    (h : scene.Calls name ∨ scene.subject.addressee? = some name ∧ values = [])
    (hvalues : ∀ key, .key key ∉ values) : Adds scene (dispatch scene name values) :=
  (adds_note (.dispatched name values _) ⟨rfl, h, hvalues⟩).bind fun _ => adds_pure _

theorem adds_addressee : Adds scene (addressee scene) := by
  unfold addressee
  cases hsubject : scene.subject with
  | bool b => exact adds_pure _
  | none | character | item =>
    exact (adds_dispatch (.inr ⟨by rw [hsubject]; rfl, rfl⟩) fun _ => List.not_mem_nil).map _

theorem adds_renderRaw (key : String) : ∀ raw : Option RawText, Adds scene (renderRaw key raw)
  | some (.text s)            => adds_pure s
  | some (.list [])           => adds_pure ""
  | some (.list (_ :: items)) => (adds_draw (items.length + 1)).map _
  | none                      =>
    (adds_note (.missing key) trivial).bind fun _ => adds_pure ""

theorem adds_choose : ∀ entry : Entry, Adds scene (choose entry)
  | .single e           => adds_pure (some e)
  | .variants []        => adds_pure none
  | .variants (_ :: es) => (adds_draw (es.length + 1)).map _

theorem mem_of_choose {e : Expression} {state : State} : ∀ {entry : Entry},
    (choose entry state).1 = some e → e ∈ entry.expressions
  | .single _, h => by
    cases h
    exact List.mem_singleton_self e
  | .variants [], h => nomatch h
  | .variants (_ :: _), h => List.mem_of_getElem? h

end

section

variable {scene : Scene} {reference : String → RenderM String}

/-! ### Values of calls -/

theorem addressee_ne_key (state : State) (key : String) : (addressee scene state).1 ≠ .key key := by
  unfold addressee
  cases scene.subject <;> exact nofun

theorem valueAt_ne_key (position : Nat) (state : State) (key : String) :
    (valueAt scene reference position state).1 ≠ .key key := by
  unfold valueAt
  split
  · exact addressee_ne_key state key
  · cases callerValue? scene.args position with
    | none => exact nofun
    | some value => cases value <;> exact nofun

theorem evalArg_ne_key (arg : Arg) (state : State) (key : String) :
    (evalArg scene reference arg state).1 ≠ .key key := by
  cases arg with
  | positional n =>
    rw [evalArg]
    exact valueAt_ne_key n state key
  | call | str | int | float | bool =>
    rw [evalArg]
    exact nofun

theorem key_not_mem_evalArgs : ∀ (args : List Arg) (state : State) (key : String),
    .key key ∉ (evalArgs scene reference args state).1
  | [], _, _ => by
    rw [evalArgs]
    exact List.not_mem_nil
  | arg :: args, state, key => by
    rw [evalArgs]
    exact List.not_mem_cons_of_ne_of_not_mem (evalArg_ne_key arg state key).symm
      (key_not_mem_evalArgs args _ key)

/-! ### Evaluation -/

theorem adds_valueAt (href : ∀ key, Adds scene (reference key)) (position : Nat) :
    Adds scene (valueAt scene reference position) := by
  unfold valueAt
  split
  · exact adds_addressee
  · split
    · exact (href _).map _
    · exact adds_pure _
    · exact (adds_note (.unbound position) trivial).bind fun _ => adds_pure _

mutual

theorem adds_evalArg (href : ∀ key, Adds scene (reference key)) : ∀ {arg : Arg},
    (∀ name, arg.Calls name → scene.Calls name) → Adds scene (evalArg scene reference arg)
  | .call f args, h => by
    have hargs : ∀ arg ∈ args, ∀ name, arg.Calls name → scene.Calls name :=
      fun arg hmem name hname => h name (.inside hmem hname)
    rw [evalArg]
    exact (adds_evalArgs href hargs).bind fun state =>
      (adds_dispatch (.inl (h f (.here args))) (key_not_mem_evalArgs args state)).map _
  | .str _, _ | .int _, _ | .float _, _ | .bool _, _ => by
    rw [evalArg]
    exact adds_pure _
  | .positional n, _ => by
    rw [evalArg]
    exact adds_valueAt href n

theorem adds_evalArgs (href : ∀ key, Adds scene (reference key)) : ∀ {args : List Arg},
    (∀ arg ∈ args, ∀ name, arg.Calls name → scene.Calls name) →
      Adds scene (evalArgs scene reference args)
  | [], _ => by
    rw [evalArgs]
    exact adds_pure []
  | arg :: args, h => by
    rw [List.forall_mem_cons] at h
    rw [evalArgs]
    exact (adds_evalArg href h.1).bind fun _ => (adds_evalArgs href h.2).bind fun _ => adds_pure _

end

theorem adds_evalNode (href : ∀ key, Adds scene (reference key)) {node : Node}
    (h : ∀ name, node.Calls name → scene.Calls name) :
    Adds scene (evalNode scene reference node) := by
  cases node with
  | text s => exact adds_pure s
  | call c =>
    have hargs : ∀ arg ∈ c.args, ∀ name, arg.Calls name → scene.Calls name :=
      fun arg hmem name hname => h name (.inside hmem hname)
    exact (adds_evalArgs href hargs).bind fun state =>
      adds_dispatch (.inl (h c.name (.here c.args))) (key_not_mem_evalArgs c.args state)
  | positional n => exact (adds_valueAt href n).map _

theorem adds_evalExpression (href : ∀ key, Adds scene (reference key)) {e : Expression}
    (h : ∀ name, e.Calls name → scene.Calls name) : Adds scene (evalExpression scene reference e) :=
  (Adds.mapM fun node hmem => adds_evalNode href fun name hname =>
    h name ⟨node, hmem, hname⟩).map String.join

theorem adds_renderBody (href : ∀ key, Adds scene (reference key)) (key : String) :
    Adds scene (renderBody scene reference key) := by
  unfold renderBody
  cases hentry : scene.entry? key with
  | none => exact adds_renderRaw key _
  | some entry =>
    refine (adds_choose entry).bind fun state => ?_
    cases hchosen : (choose entry state).1 with
    | none => exact adds_pure ""
    | some e =>
      exact adds_evalExpression href fun name hname =>
        ⟨key, entry, hentry, e, mem_of_choose hchosen, hname⟩

theorem adds_under {key : String} {body : RenderM String} (hbody : Adds scene body) :
    Adds scene (under key body) := by
  intro state event hmem
  cases hpush : state.stack.push key with
  | error reason =>
    rw [under_of_refused body hpush] at hmem
    rcases List.mem_cons.1 hmem with rfl | hmem
    · exact .inr trivial
    · exact .inl hmem
  | ok stack =>
    rw [under_of_push body hpush] at hmem
    rcases hbody (state.opened stack) event hmem with hmem | h
    · rcases List.mem_cons.1 hmem with rfl | hmem
      · exact .inr trivial
      · exact .inl hmem
    · exact .inr h

theorem adds_renderKey : ∀ (room : Nat) (key : String), Adds scene (renderKey scene room key)
  | 0,        _   => adds_under (adds_pure "")
  | room + 1, key => adds_under (adds_renderBody (adds_renderKey room) key)

end

end Render

/-- Whatever happens while a key renders, the scene explains. -/
theorem Scene.explains_of_mem_trace {scene : Scene} {limit : Nat} {source : Source} {key : String}
    {event : Render.Event} (h : event ∈ (scene.render limit source key).trace) :
    scene.Explains event :=
  (Render.adds_renderKey limit key _ event (List.mem_reverse.1 h)).resolve_left List.not_mem_nil

end Phrasebook
