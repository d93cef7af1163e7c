import Phrasebook.Store.Basic
/-!
# Rendering without a stack — each key knows the keys above it

The stack of keys is shared by all that renders inside a lookup, so what a key makes of it has to be
undone before the next key is looked at.  Here the keys above a key are handed down to it instead,
and nothing is left but the draws.  Rendering with the stack does the same (`follows_renderKey`),
and leaves the stack as it found it.
-/
namespace Phrasebook

/-! ## The renderer -/

/-- A computation that draws, and does nothing else. -/
abbrev DrawM := StateM Source

namespace Stackless

def draw (size : Nat) : DrawM Nat := fun source => source.index size

def dispatch (scene : Scene) (name : String) (args : List Value) : String :=
  (scene.registry.dispatch name args scene.subject scene.language).text name

def addressee (scene : Scene) : Value :=
  match scene.subject with
  | .bool b      => .bool b
  | .none        => .str (dispatch scene "you" [])
  | .character _ => .str (dispatch scene "name" [])
  | .item _      => .str (dispatch scene "name" [])

def valueAt (scene : Scene) (reference : String → DrawM String) (position : Nat) : DrawM Value :=
  if position = 1 then pure (addressee scene)
  else
    match callerValue? scene.args position with
    | some (.key key) => Value.str <$> reference key
    | some value      => pure value
    | none            => pure (.str "")

mutual

def evalArg (scene : Scene) (reference : String → DrawM String) : Arg → DrawM Value
  | .call name args => do
    let values ← evalArgs scene reference args
    pure (.str (dispatch scene name values))
  | .str text       => pure (.str text)
  | .int n          => pure (.int n)
  | .float x        => pure (.float x)
  | .bool b         => pure (.bool b)
  | .positional n   => valueAt scene reference n

def evalArgs (scene : Scene) (reference : String → DrawM String) : List Arg → DrawM (List Value)
  | []          => pure []
  | arg :: args => do
    let value ← evalArg scene reference arg
    let values ← evalArgs scene reference args
    pure (value :: values)

end

def evalNode (scene : Scene) (reference : String → DrawM String) : Node → DrawM String
  | .text literal => pure literal
  | .call c       => dispatch scene c.name <$> evalArgs scene reference c.args
  | .positional n => Value.display <$> valueAt scene reference n

def evalExpression (scene : Scene) (reference : String → DrawM String) (e : Expression) :
    DrawM String :=
  String.join <$> e.nodes.mapM (evalNode scene reference)

def choose : Entry → DrawM (Option Expression)
  | .single e           => pure (some e)
  | .variants []        => pure none
  | .variants (e :: es) => (fun index => (e :: es)[index]?) <$> draw (es.length + 1)

def renderRaw : Option RawText → DrawM String
  | some (.text s)               => pure s
  | some (.list [])              => pure ""
  | some (.list (item :: items)) =>
    (fun index => (item :: items).getD index "") <$> draw (items.length + 1)
  | none                         => pure ""

def renderBody (scene : Scene) (reference : String → DrawM String) (key : String) : DrawM String :=
  match scene.entry? key with
  | none       => renderRaw (scene.raw? key)
  | some entry => do
    match ← choose entry with
    | some e => evalExpression scene reference e
    | none   => pure ""

/-- Renders a key inside the keys above it, the innermost first.  With as many keys above it as may
be, or among them, it has no text. -/
def renderKey (scene : Scene) (limit : Nat) (above : List String) (key : String) : DrawM String :=
  if _ : limit ≤ above.length then pure ""
  else if key ∈ above then pure ""
  else renderBody scene (renderKey scene limit (key :: above)) key
termination_by limit - above.length
decreasing_by
  rw [List.length_cons]
  omega

theorem renderKey_of_refused {limit : Nat} {above : List String} {key : String}
    (h : limit ≤ above.length ∨ key ∈ above) (scene : Scene) :
    renderKey scene limit above key = pure "" := by
  rw [renderKey]
  split
  · rfl
  · exact if_pos (h.resolve_left ‹_›)

theorem renderKey_of_taken {limit : Nat} {above : List String} {key : String}
    (hroom : above.length < limit) (hkey : key ∉ above) (scene : Scene) :
    renderKey scene limit above key =
      renderBody scene (renderKey scene limit (key :: above)) key := by
  rw [renderKey, dif_neg (Nat.not_le.2 hroom), if_neg hkey]

end Stackless

/-! ## Stacks -/

theorem KeyStack.push_eq_ok {s t : KeyStack} {key : String} :
    s.push key = .ok t ↔
      s.keys.length < s.limit ∧ key ∉ s.keys ∧ t = { s with keys := key :: s.keys } := by
  unfold push
  split
  · exact ⟨fun h => (nomatch h), fun h => absurd h.1 (Nat.not_lt.2 ‹_›)⟩
  · split
    · exact ⟨fun h => (nomatch h), fun h => absurd ‹_› h.2.1⟩
    · rw [Except.ok.injEq, eq_comm]
      exact ⟨fun h => ⟨Nat.not_le.1 ‹_›, ‹_›, h⟩, fun h => h.2.2⟩

theorem KeyStack.full_or_mem_of_push {s : KeyStack} {key : String} {reason : Refusal}
    (h : s.push key = .error reason) : s.limit ≤ s.keys.length ∨ key ∈ s.keys := by
  unfold push at h
  split at h
  · exact .inl ‹_›
  · split at h
    · exact .inr ‹_›
    · cases h

namespace Render

theorem bind_apply {α β : Type} (x : RenderM α) (f : α → RenderM β) (state : State) :
    (x >>= f) state = f (x state).1 (x state).2 := rfl

theorem get_apply (state : State) : (get : RenderM State) state = (state, state) := rfl

/-- The state in which the body of a key starts. -/
def State.opened (state : State) (stack : KeyStack) : State :=
  { state with stack := stack, trace := .opened stack.keys :: state.trace }

/-- A key that the stack takes renders its body, and is taken off again. -/
theorem under_of_push {key : String} {state : State} {stack : KeyStack} (body : RenderM String)
    (h : state.stack.push key = .ok stack) :
    under key body state =
      ((body (state.opened stack)).1,
        { (body (state.opened stack)).2 with
          stack := (body (state.opened stack)).2.stack.pop }) := by
  unfold under
  rw [bind_apply, get_apply]
  simp only [h]
  rfl

theorem under_of_refused {key : String} {state : State} {reason : KeyStack.Refusal}
    (body : RenderM String) (h : state.stack.push key = .error reason) :
    under key body state =
      ("", { state with trace := .refused key reason :: state.trace }) := by
  unfold under
  rw [bind_apply, get_apply]
  simp only [h]
  rfl

theorem push_empty {limit : Nat} (h : 1 ≤ limit) (key : String) :
    KeyStack.push ⟨limit, []⟩ key = .ok ⟨limit, [key]⟩ :=
  KeyStack.push_eq_ok.2 ⟨h, List.not_mem_nil, rfl⟩

theorem renderBody_single {scene : Scene} {key : String} {e : Expression}
    (h : scene.entry? key = some (.single e)) (reference : String → RenderM String) :
    renderBody scene reference key = evalExpression scene reference e := by
  unfold renderBody
  rw [h]
  rfl

/-! ## Following -/

/-- From any state with this stack, `x` comes to what `y` comes to, with the same draws, and leaves
the stack as it was.  All stacks that it has gone through in between are of the kind `P`. -/
structure Follows {α : Type} (P : List String → Prop) (stack : KeyStack) (x : RenderM α)
    (y : DrawM α) : Prop where
  value    : ∀ state, state.stack = stack → (x state).1 = (y state.source).1
  source   : ∀ state, state.stack = stack → (x state).2.source = (y state.source).2
  restores : ∀ state, state.stack = stack → (x state).2.stack = stack
  opened   : ∀ state, state.stack = stack → ∀ keys,
    .opened keys ∈ (x state).2.trace → .opened keys ∈ state.trace ∨ P keys

section

variable {α β : Type} {P : List String → Prop} {stack : KeyStack}

theorem follows_pure (a : α) : Follows P stack (pure a) (pure a) where
  value _ _ := rfl
  source _ _ := rfl
  restores _ h := h
  opened _ _ _ h := .inl h

theorem Follows.bind {x : RenderM α} {y : DrawM α} {f : α → RenderM β} {g : α → DrawM β}
    (hx : Follows P stack x y) (hf : ∀ a, Follows P stack (f a) (g a)) :
    Follows P stack (x >>= f) (y >>= g) where
  value state h := by
    rw [bind_apply, (hf _).value _ (hx.restores state h), hx.value state h, hx.source state h]
    rfl
  source state h := by
    rw [bind_apply, (hf _).source _ (hx.restores state h), hx.value state h, hx.source state h]
    rfl
  restores state h := by
    rw [bind_apply]
    exact (hf _).restores _ (hx.restores state h)
  opened state h keys hkeys := by
    rw [bind_apply] at hkeys
    obtain hkeys | hkeys := (hf _).opened _ (hx.restores state h) keys hkeys
    · exact hx.opened state h keys hkeys
    · exact .inr hkeys

theorem Follows.map {x : RenderM α} {y : DrawM α} (f : α → β) (h : Follows P stack x y) :
    Follows P stack (f <$> x) (f <$> y) := h.bind fun a => follows_pure (f a)

theorem Follows.mapM {f : α → RenderM β} {g : α → DrawM β} (h : ∀ a, Follows P stack (f a) (g a)) :
    ∀ as : List α, Follows P stack (as.mapM f) (as.mapM g)
  | []      => by
    rw [List.mapM_nil, List.mapM_nil]
    exact follows_pure []
  | a :: as => by
    rw [List.mapM_cons, List.mapM_cons]
    exact (h a).bind fun b => (Follows.mapM h as).bind fun bs => follows_pure (b :: bs)

theorem follows_note (event : Event) (h : ∀ keys, event ≠ .opened keys) :
    Follows P stack (note event) (pure ()) where
  value _ _ := rfl
  source _ _ := rfl
  restores _ hstack := hstack
  opened _ _ keys hkeys := .inl ((List.mem_cons.1 hkeys).resolve_left (h keys).symm)

theorem follows_draw (size : Nat) : Follows P stack (draw size) (Stackless.draw size) where
  value _ _ := rfl
  source _ _ := rfl
  restores _ h := h
  opened _ _ _ hkeys := .inl ((List.mem_cons.1 hkeys).resolve_left nofun)

theorem follows_dispatch (scene : Scene) (name : String) (args : List Value) :
    Follows P stack (dispatch scene name args) (pure (Stackless.dispatch scene name args)) :=
  (follows_note (.dispatched name args _) fun _ => nofun).bind fun _ => follows_pure _

/-! ## Evaluation -/

section

variable {scene : Scene} {reference : String → RenderM String}
  {reference' : String → DrawM String}

theorem mem_of_callerValue? {args : List Value} {position : Nat} {value : Value}
    (h : callerValue? args position = some value) : value ∈ args := by
  unfold callerValue? at h
  split at h
  · cases h
  · exact List.mem_of_getElem? h

theorem follows_addressee :
    Follows P stack (addressee scene) (pure (Stackless.addressee scene)) := by
  unfold addressee Stackless.addressee
  cases scene.subject with
  | bool b => exact follows_pure _
  | none | character | item => exact (follows_dispatch scene _ []).map Value.str

theorem follows_valueAt
    (href : ∀ key, .key key ∈ scene.args → Follows P stack (reference key) (reference' key))
    (position : Nat) :
    Follows P stack (valueAt scene reference position)
      (Stackless.valueAt scene reference' position) := by
  unfold valueAt Stackless.valueAt
  split
  · exact follows_addressee
  · cases hvalue : callerValue? scene.args position with
    | none => exact (follows_note (.unbound position) fun _ => nofun).bind fun _ => follows_pure _
    | some value =>
      cases value with
      | key key => exact (href key (mem_of_callerValue? hvalue)).map Value.str
      | int | float | bool | str => exact follows_pure _

mutual

theorem follows_evalArg
    (href : ∀ key, .key key ∈ scene.args → Follows P stack (reference key) (reference' key)) :
    ∀ arg : Arg, Follows P stack (evalArg scene reference arg)
      (Stackless.evalArg scene reference' arg)
  | .call name args => by
    rw [evalArg, Stackless.evalArg]
    exact (follows_evalArgs href args).bind fun values =>
      (follows_dispatch scene name values).map Value.str
  | .str _ | .int _ | .float _ | .bool _ => by
    rw [evalArg, Stackless.evalArg]
    exact follows_pure _
  | .positional n => by
    rw [evalArg, Stackless.evalArg]
    exact follows_valueAt href n

theorem follows_evalArgs
    (href : ∀ key, .key key ∈ scene.args → Follows P stack (reference key) (reference' key)) :
    ∀ args : List Arg, Follows P stack (evalArgs scene reference args)
      (Stackless.evalArgs scene reference' args)
  | [] => by
    rw [evalArgs, Stackless.evalArgs]
    exact follows_pure []
  | arg :: args => by
    rw [evalArgs, Stackless.evalArgs]
    exact (follows_evalArg href arg).bind fun value =>
      (follows_evalArgs href args).bind fun values => follows_pure (value :: values)

end

theorem follows_evalNode
    (href : ∀ key, .key key ∈ scene.args → Follows P stack (reference key) (reference' key))
    (node : Node) :
    Follows P stack (evalNode scene reference node) (Stackless.evalNode scene reference' node) := by
  cases node with
  | text s => exact follows_pure s
  | call c =>
    exact (follows_evalArgs href c.args).bind fun values => follows_dispatch scene c.name values
  | positional n => exact (follows_valueAt href n).map Value.display

theorem follows_evalExpression
    (href : ∀ key, .key key ∈ scene.args → Follows P stack (reference key) (reference' key))
    (e : Expression) :
    Follows P stack (evalExpression scene reference e)
      (Stackless.evalExpression scene reference' e) :=
  (Follows.mapM (follows_evalNode href) e.nodes).map String.join

/-! ## Keys -/

theorem follows_choose : ∀ entry : Entry,
    Follows P stack (choose entry) (Stackless.choose entry)
  | .single e           => follows_pure (some e)
  | .variants []        => follows_pure none
  | .variants (_ :: es) => (follows_draw (es.length + 1)).map _

theorem follows_renderRaw (key : String) : ∀ raw : Option RawText,
    Follows P stack (renderRaw key raw) (Stackless.renderRaw raw)
  | some (.text s)            => follows_pure s
  | some (.list [])           => follows_pure ""
  | some (.list (_ :: items)) => (follows_draw (items.length + 1)).map _
  | none                      =>
    (follows_note (.missing key) fun _ => nofun).bind fun _ => follows_pure ""

theorem follows_renderBody
    (href : ∀ key, .key key ∈ scene.args → Follows P stack (reference key) (reference' key))
    (key : String) :
    Follows P stack (renderBody scene reference key)
      (Stackless.renderBody scene reference' key) := by
  unfold renderBody Stackless.renderBody
  cases scene.entry? key with
  | none => exact follows_renderRaw key _
  | some entry =>
    refine (follows_choose entry).bind fun chosen => ?_
    cases chosen with
    | none => exact follows_pure ""
    | some e => exact follows_evalExpression href e

end

theorem follows_under_refused {key : String} {reason : KeyStack.Refusal} (body : RenderM String)
    (h : stack.push key = .error reason) : Follows P stack (under key body) (pure "") where
  value state hs := by
    rw [under_of_refused body (hs ▸ h)]
    rfl
  source state hs := by
    rw [under_of_refused body (hs ▸ h)]
    rfl
  restores state hs := by
    rw [under_of_refused body (hs ▸ h)]
    exact hs
  opened state hs keys hkeys := by
    rw [under_of_refused body (hs ▸ h)] at hkeys
    exact .inl ((List.mem_cons.1 hkeys).resolve_left nofun)

/-- What a key puts on the stack it takes off again. -/
theorem follows_under {key : String} {stack' : KeyStack} {body : RenderM String}
    {body' : DrawM String} (h : stack.push key = .ok stack') (hP : P stack'.keys)
    (hbody : Follows P stack' body body') : Follows P stack (under key body) body' where
  value state hs := by
    rw [under_of_push body (hs ▸ h)]
    exact hbody.value (state.opened stack') rfl
  source state hs := by
    rw [under_of_push body (hs ▸ h)]
    exact hbody.source (state.opened stack') rfl
  restores state hs := by
    rw [under_of_push body (hs ▸ h)]
    show (body (state.opened stack')).2.stack.pop = stack
    rw [hbody.restores (state.opened stack') rfl, (KeyStack.push_eq_ok.1 h).2.2]
    rfl
  opened state hs keys hkeys := by
    rw [under_of_push body (hs ▸ h)] at hkeys
    obtain hkeys | hkeys := hbody.opened (state.opened stack') rfl keys hkeys
    · rcases List.mem_cons.1 hkeys with heq | hkeys
      · cases heq
        exact .inr hP
      · exact .inl hkeys
    · exact .inr hkeys

/-- Rendering with a stack follows rendering without one, as long as there is room for as many keys
as the stack may still take.  The kind `P` of the stacks in between is any that lasts when a key
among the values is pushed. -/
theorem follows_renderKey {scene : Scene} {limit : Nat}
    (hP : ∀ keys key, P keys → .key key ∈ scene.args → keys.length < limit → key ∉ keys →
      P (key :: keys)) :
    ∀ (room : Nat) (above : List String) (key : String), limit ≤ room + above.length →
      (above.length < limit → key ∉ above → P (key :: above)) →
      Follows P ⟨limit, above⟩ (renderKey scene room key)
        (Stackless.renderKey scene limit above key) := by
  intro room
  induction room with
  | zero =>
    intro above key hroom _
    have hfull : limit ≤ above.length := by omega
    rw [renderKey, Stackless.renderKey_of_refused (.inl hfull)]
    exact follows_under_refused _ (if_pos hfull)
  | succ room ih =>
    intro above key hroom hkey
    rw [renderKey]
    -- both refuse a key for the same two reasons
    cases hpush : KeyStack.push ⟨limit, above⟩ key with
    | error reason =>
      rw [Stackless.renderKey_of_refused (KeyStack.full_or_mem_of_push hpush)]
      exact follows_under_refused _ hpush
    | ok stack' =>
      obtain ⟨hlimit, hnew, rfl⟩ := KeyStack.push_eq_ok.1 hpush
      have hkeys := hkey hlimit hnew
      rw [Stackless.renderKey_of_taken hlimit hnew]
      refine follows_under hpush hkeys (follows_renderBody (fun nested hnested => ?_) key)
      refine ih (key :: above) nested ?_ (hP (key :: above) nested hkeys hnested)
      rw [List.length_cons]
      omega

end

/-- From this state, `x` comes to what `y` comes to, uses up as much of the random source, and
leaves the stack as it found it. -/
structure AgreesAt {α : Type} (state : State) (x : RenderM α) (y : DrawM α) : Prop where
  value    : (x state).1 = (y state.source).1
  source   : (x state).2.source = (y state.source).2
  restores : (x state).2.stack = state.stack

theorem Follows.agreesAt {α : Type} {P : List String → Prop} {x : RenderM α} {y : DrawM α}
    {state : State} (h : Follows P state.stack x y) : AgreesAt state x y :=
  ⟨h.value state rfl, h.source state rfl, h.restores state rfl⟩

end Render

/-- Below the limit there is always room, so the kinds of stacks in between do not matter. -/
theorem Render.follows_stackless {scene : Scene} (room : Nat) (stack : KeyStack) (key : String)
    (hroom : stack.limit ≤ room + stack.keys.length) :
    Follows (fun _ => True) stack (renderKey scene room key)
      (Stackless.renderKey scene stack.limit stack.keys key) :=
  follows_renderKey (fun _ _ _ _ _ _ => trivial) room stack.keys key hroom fun _ _ => trivial

theorem Scene.render_stackless (scene : Scene) (limit : Nat) (source : Source) (key : String) :
    ((scene.render limit source key).text, (scene.render limit source key).source) =
      Stackless.renderKey scene limit [] key source := by
  have hstart : Render.AgreesAt ⟨⟨limit, []⟩, source, []⟩ (Render.renderKey scene limit key)
      (Stackless.renderKey scene limit [] key) :=
    (Render.follows_stackless limit ⟨limit, []⟩ key (Nat.le_refl _)).agreesAt
  exact Prod.ext hstart.value hstart.source

/-! ## Siblings -/

theorem Stackless.mapM_replicate {α β γ : Type} {f : α → DrawM γ} {g : β → DrawM γ} {a : α} {b : β}
    (h : f a = g b) : ∀ n, (List.replicate n a).mapM f = (List.replicate n b).mapM g
  | 0     => by rw [List.replicate_zero, List.replicate_zero, List.mapM_nil, List.mapM_nil]
  | n + 1 => by
    rw [List.replicate_succ, List.replicate_succ, List.mapM_cons, List.mapM_cons, h,
      mapM_replicate h n]

/-- A position that is bound to a key renders the key, as often as it is mentioned. -/
theorem Stackless.evalExpression_replicate {scene : Scene} {position : Nat} {key : String}
    (hkey : callerValue? scene.args position = some (.key key)) (reference : String → DrawM String)
    (n : Nat) :
    evalExpression scene reference ⟨List.replicate n (.positional position)⟩ =
      String.join <$> (List.replicate n key).mapM reference := by
  have hposition : position ≠ 1 := by
    rintro rfl
    cases hkey
  have hnode : evalNode scene reference (.positional position) = reference key := by
    rw [evalNode, valueAt, if_neg hposition, hkey]
    rfl
  rw [evalExpression, mapM_replicate hnode]

/-- **A stack that is undone is no stack.**  A lookup has the text of the renderer without a stack
and leaves the random source where that leaves it.  So does every key and every text that renders
inside it, with the keys on the stack above it, and each leaves the stack as it found it: a key that
is mentioned beside itself renders each time. -/
theorem Store.lookupWith_stackless (st : Store) (subject : Subject) (args : List Value) :
    let scene := st.scene subject args
    (∀ key, ((st.lookupWith key subject args).text, (st.lookupWith key subject args).source) =
      Stackless.renderKey scene st.maxDepth [] key st.source) ∧
    (∀ (room : Nat) (state : Render.State), state.stack.limit ≤ room + state.stack.keys.length →
      let reference := Stackless.renderKey scene state.stack.limit state.stack.keys
      (∀ key, Render.AgreesAt state (Render.renderKey scene room key) (reference key)) ∧
      ∀ e, Render.AgreesAt state (Render.evalExpression scene (Render.renderKey scene room) e)
        (Stackless.evalExpression scene reference e)) ∧
    ∀ (limit : Nat) (above : List String) (position : Nat) (key : String),
      callerValue? args position = some (.key key) → above.length < limit → key ∉ above → ∀ n,
        Stackless.evalExpression scene (Stackless.renderKey scene limit above)
            ⟨List.replicate n (.positional position)⟩ =
          String.join <$> (List.replicate n key).mapM
            (Stackless.renderBody scene (Stackless.renderKey scene limit (key :: above))) := by
  intro scene
  refine ⟨fun key => ?_, fun room state hroom => ⟨fun key => ?_, fun e => ?_⟩, ?_⟩
  · exact scene.render_stackless st.maxDepth st.source key
  · exact (Render.follows_stackless room state.stack key hroom).agreesAt
  · exact (Render.follows_evalExpression
      (fun key _ => Render.follows_stackless room state.stack key hroom) e).agreesAt
  · intro limit above position key hposition hlimit hnew n
    have hrendered := Stackless.renderKey_of_taken hlimit hnew scene
    rw [Stackless.evalExpression_replicate hposition, Stackless.mapM_replicate hrendered]

theorem Store.lookupWith_stackless_twice :
    let entry : Entry := .variants [⟨[.text "x"]⟩, ⟨[.text "y", .positional 2]⟩]
    let st : Store := { source := .cycle #[7], entries := (∅ : Entries).insert "b" entry }
    let scene := st.scene .none [.key "b"]
    Render.AgreesAt ⟨⟨2, ["a"]⟩, st.source, []⟩ (Render.renderKey scene 1 "b")
        (Stackless.renderKey scene 2 ["a"] "b") ∧
      Stackless.evalExpression scene (Stackless.renderKey scene 2 ["a"])
          ⟨List.replicate 2 (.positional 2)⟩ =
        String.join <$> (List.replicate 2 "b").mapM
          (Stackless.renderBody scene (Stackless.renderKey scene 2 ["b", "a"])) := by
  intro entry st scene
  obtain ⟨_, hnested, hbeside⟩ := lookupWith_stackless st .none [.key "b"]
  exact ⟨(hnested 1 ⟨⟨2, ["a"]⟩, st.source, []⟩ (by decide)).1 "b",
    hbeside 2 ["a"] 2 "b" rfl (by decide) (by decide) 2⟩

end Phrasebook
