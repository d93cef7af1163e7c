import Phrasebook.Proofs.Render.Mentions
/-!
# Draws — one for each group that is rendered, in the order of the texts

No texts are needed to tell which groups a rendering draws from: a key that the stack takes draws
once if it stands for a group, and then come the keys that the member mentions, from left to right.
A key that the stack refuses draws nothing.  So lookups without groups are as if they had not been.
-/
namespace Phrasebook

open Render

/-! ## Words -/

namespace Source

/-- The source after a draw of an index. -/
def past (s : Source) (size : Nat) : Source := (s.index size).2

theorem drawn_add_length_le (sizes : List Nat) (s : Source) :
    s.drawn + sizes.length ≤ (sizes.foldl past s).drawn := by
  induction sizes generalizing s with
  | nil => exact Nat.le_refl _
  | cons size sizes ih =>
    have hone : s.drawn < (s.past size).drawn := s.drawn_lt_index size
    have hrest := ih (s.past size)
    rw [List.length_cons, List.foldl_cons]
    omega

end Source

/-! ## Schedules -/

namespace Render

/-- Does the event say what becomes of a key, or of a draw? -/
def Event.isStep : Event → Bool
  | .opened _         => true
  | .refused _ _      => true
  | .drew _ _         => true
  | .missing _        => false
  | .unbound _        => false
  | .dispatched _ _ _ => false

/-- The size of the group that a draw is from. -/
def Event.size? : Event → Option Nat
  | .drew size _ => some size
  | _            => none

/-- The size of the group that a key stands for, if this is where it begins to render. -/
def Event.group? (scene : Scene) : Event → Option Nat
  | .opened (key :: _) => scene.group? key
  | _                  => none

end Render

/-- The keys that are bound to the positions in an expression, from left to right. -/
def Scene.keysIn (scene : Scene) (e : Expression) : List String :=
  e.positions.filterMap scene.keyAt?

/-- The keys that a member of a key's group mentions, from left to right; a message that is no group
is its only member. -/
def Scene.mentioned (scene : Scene) (key : String) (index : Nat) : List String :=
  match scene.entry? key with
  | some entry => (entry.expressions[index]?.map scene.keysIn).getD []
  | none       => []

/-- What becomes of keys and draws, one after the other. -/
abbrev Schedule := DrawM (List Event)

namespace Schedule

def append (x y : Schedule) : Schedule := do
  let events ← x
  let more ← y
  pure (events ++ more)

def ofKeys (ofKey : String → Schedule) : List String → Schedule
  | []          => pure []
  | key :: keys => (ofKey key).append (ofKeys ofKey keys)

/-- One draw if the key stands for a group, and then the keys that the member mentions. -/
def ofBody (scene : Scene) (ofKey : String → Schedule) (key : String) : Schedule :=
  match scene.group? key with
  | none      => ofKeys ofKey (scene.mentioned key 0)
  | some size => do
    let index ← Stackless.draw size
    (.drew size index :: ·) <$> ofKeys ofKey (scene.mentioned key index)

/-- What becomes of a key inside the keys above it, the innermost first. -/
def ofKey (scene : Scene) (limit : Nat) (above : List String) (key : String) : Schedule :=
  if _ : limit ≤ above.length then pure [.refused key .tooDeep]
  else if key ∈ above then pure [.refused key (.cyclic (key :: above).reverse)]
  else (.opened (key :: above) :: ·) <$> ofBody scene (ofKey scene limit (key :: above)) key
termination_by limit - above.length
decreasing_by
  rw [List.length_cons]
  omega

variable {scene : Scene} {limit : Nat} {above : List String} {key : String}

theorem ofKey_of_refused {reason : KeyStack.Refusal}
    (h : KeyStack.push ⟨limit, above⟩ key = .error reason) :
    ofKey scene limit above key = pure [.refused key reason] := by
  rw [KeyStack.push] at h
  rw [ofKey]
  split at h
  · cases h
    exact dif_pos ‹_›
  · split at h
    · cases h
      rw [dif_neg ‹_›, if_pos ‹_›]
    · cases h

theorem ofKey_of_taken (hroom : above.length < limit) (hkey : key ∉ above) :
    ofKey scene limit above key =
      (.opened (key :: above) :: ·) <$> ofBody scene (ofKey scene limit (key :: above)) key := by
  rw [ofKey, dif_neg (Nat.not_le.2 hroom), if_neg hkey]

theorem ofBody_of_none (h : scene.group? key = none) (f : String → Schedule) :
    ofBody scene f key = ofKeys f (scene.mentioned key 0) := by
  rw [ofBody, h]

theorem ofBody_of_some {size : Nat} (h : scene.group? key = some size) (f : String → Schedule) :
    ofBody scene f key = Stackless.draw size >>= fun index =>
      (.drew size index :: ·) <$> ofKeys f (scene.mentioned key index) := by
  rw [ofBody, h]

theorem cons_apply (event : Event) (x : Schedule) (source : Source) :
    ((event :: ·) <$> x) source = (event :: (x source).1, (x source).2) := rfl

theorem draw_bind_apply (size : Nat) (x : Nat → Schedule) (source : Source) :
    (Stackless.draw size >>= x) source = x (source.index size).1 (source.index size).2 := rfl

theorem pure_append (x : Schedule) : append (pure []) x = x := by
  simp [append]

theorem append_pure (x : Schedule) : append x (pure []) = x := by
  simp [append]

theorem append_assoc (x y z : Schedule) : (x.append y).append z = x.append (y.append z) := by
  simp only [append, bind_assoc, pure_bind, List.append_assoc]

theorem ofKeys_append (f : String → Schedule) (keys more : List String) :
    ofKeys f (keys ++ more) = (ofKeys f keys).append (ofKeys f more) := by
  induction keys with
  | nil => rw [List.nil_append, ofKeys, pure_append]
  | cons key keys ih => rw [List.cons_append, ofKeys, ofKeys, ih, append_assoc]

theorem ofKeys_singleton (f : String → Schedule) (key : String) : ofKeys f [key] = f key := by
  rw [ofKeys, ofKeys, append_pure]

/-! ### Draws and groups -/

/-- There is one draw from each group that begins to render, in the same order, and nothing else
takes words from the source. -/
structure IsBalanced (scene : Scene) (x : Schedule) : Prop where
  groups : ∀ source,
    (x source).1.filterMap Event.size? = (x source).1.filterMap (Event.group? scene)
  words  : ∀ source, (x source).2 = ((x source).1.filterMap Event.size?).foldl Source.past source

theorem IsBalanced.ofKeys {f : String → Schedule} (h : ∀ key, IsBalanced scene (f key)) :
    ∀ keys, IsBalanced scene (ofKeys f keys)
  | []          => ⟨fun _ => rfl, fun _ => rfl⟩
  | key :: keys => by
    have hkeys := IsBalanced.ofKeys h keys
    refine ⟨fun source => ?_, fun source => ?_⟩
    · show List.filterMap _ (_ ++ _) = List.filterMap _ (_ ++ _)
      rw [List.filterMap_append, List.filterMap_append, (h key).groups source, hkeys.groups]
    · show (Schedule.ofKeys f keys (f key source).2).2 = (List.filterMap _ (_ ++ _)).foldl _ _
      rw [List.filterMap_append, List.foldl_append, ← (h key).words source, ← hkeys.words]

theorem isBalanced_ofKey (above : List String) (key : String) :
    IsBalanced scene (ofKey scene limit above key) := by
  cases hpush : KeyStack.push ⟨limit, above⟩ key with
  | error reason =>
    rw [ofKey_of_refused hpush]
    exact ⟨fun _ => rfl, fun _ => rfl⟩
  | ok stack =>
    obtain ⟨hfree, hkey, -⟩ := KeyStack.push_eq_ok.1 hpush
    have hroom : above.length < limit := hfree
    have hkeys := IsBalanced.ofKeys fun nested => isBalanced_ofKey (key :: above) nested
    have hopened : (Event.opened (key :: above)).group? scene = scene.group? key := rfl
    rw [ofKey_of_taken hroom hkey]
    cases hgroup : scene.group? key with
    | none =>
      rw [ofBody_of_none hgroup]
      refine ⟨fun source => ?_, fun source => ?_⟩
      · rw [cons_apply, List.filterMap_cons_none rfl,
          List.filterMap_cons_none (hopened.trans hgroup)]
        exact (hkeys _).groups source
      · rw [cons_apply, List.filterMap_cons_none rfl]
        exact (hkeys _).words source
    | some size =>
      have hdrew : ∀ index, (Event.drew size index).size? = some size := fun _ => rfl
      rw [ofBody_of_some hgroup]
      refine ⟨fun source => ?_, fun source => ?_⟩
      · rw [cons_apply, List.filterMap_cons_none rfl, draw_bind_apply, cons_apply,
          List.filterMap_cons_some (hdrew _), List.filterMap_cons_some (hopened.trans hgroup),
          List.filterMap_cons_none rfl, (hkeys _).groups]
      · rw [cons_apply, List.filterMap_cons_none rfl, draw_bind_apply, cons_apply,
          List.filterMap_cons_some (hdrew _), List.foldl_cons]
        exact (hkeys _).words (source.index size).2
termination_by limit - above.length
decreasing_by
  rw [List.length_cons]
  omega

end Schedule

/-! ## Keeping to a schedule -/

namespace Render

/-- From any state with this stack, `x` does what the schedule says, with the same draws, and leaves
the stack as it was. -/
structure KeepsTo {α : Type} (stack : KeyStack) (x : RenderM α) (y : Schedule) : Prop where
  restores : ∀ state, state.stack = stack → (x state).2.stack = stack
  source   : ∀ state, state.stack = stack → (x state).2.source = (y state.source).2
  steps    : ∀ state, state.stack = stack → (x state).2.trace.filter Event.isStep =
    (y state.source).1.reverse ++ state.trace.filter Event.isStep

section

variable {α β : Type} {stack : KeyStack}

theorem keepsTo_pure (a : α) : KeepsTo stack (pure a) (pure []) where
  restores _ h := h
  source _ _ := rfl
  steps _ _ := rfl

theorem keepsTo_note {event : Event} (h : event.isStep = false) :
    KeepsTo stack (note event) (pure []) where
  restores _ hstack := hstack
  source _ _ := rfl
  steps _ _ := List.filter_cons_of_neg (Bool.eq_false_iff.1 h)

theorem KeepsTo.bind {x : RenderM α} {y z : Schedule} {f : α → RenderM β} (hx : KeepsTo stack x y)
    (hf : ∀ a, KeepsTo stack (f a) z) : KeepsTo stack (x >>= f) (y.append z) where
  restores state h := by
    rw [bind_apply]
    exact (hf _).restores _ (hx.restores state h)
  source state h := by
    rw [bind_apply, (hf _).source _ (hx.restores state h), hx.source state h]
    rfl
  steps state h := by
    rw [bind_apply, (hf _).steps _ (hx.restores state h), hx.steps state h, hx.source state h,
      ← List.append_assoc, ← List.reverse_append]
    rfl

theorem KeepsTo.map {x : RenderM α} {y : Schedule} (f : α → β) (h : KeepsTo stack x y) :
    KeepsTo stack (f <$> x) y := by
  rw [← y.append_pure]
  exact h.bind fun a => keepsTo_pure (f a)

/-- Behind a step that is none of the schedule's, the schedule still stands. -/
theorem KeepsTo.behind {x : RenderM α} {z : Schedule} {f : α → RenderM β}
    (hx : KeepsTo stack x (pure [])) (hf : ∀ a, KeepsTo stack (f a) z) :
    KeepsTo stack (x >>= f) z := by
  rw [← z.pure_append]
  exact hx.bind hf

/-- The state after a draw. -/
def State.drawn (state : State) (size : Nat) : State :=
  { state with
    source := (state.source.index size).2
    trace  := .drew size (state.source.index size).1 :: state.trace }

theorem KeepsTo.ofDraw {size : Nat} {f : Nat → RenderM α} {z : Nat → Schedule}
    (h : ∀ index, KeepsTo stack (f index) (z index)) :
    KeepsTo stack (draw size >>= f) (do
      let index ← Stackless.draw size
      (.drew size index :: ·) <$> z index) where
  restores state hstack := (h _).restores _ hstack
  source state hstack := (h _).source (state.drawn size) hstack
  steps state hstack := by
    rw [Schedule.draw_bind_apply, Schedule.cons_apply, List.reverse_cons, List.append_assoc]
    exact (h _).steps (state.drawn size) hstack

end

section

variable {scene : Scene} {stack : KeyStack} {reference : String → RenderM String}
  {ofKey : String → Schedule}

theorem keepsTo_dispatch (name : String) (args : List Value) :
    KeepsTo stack (dispatch scene name args) (pure []) :=
  KeepsTo.behind (keepsTo_note rfl) fun _ => keepsTo_pure _

theorem keepsTo_addressee : KeepsTo stack (addressee scene) (pure []) := by
  unfold addressee
  cases scene.subject with
  | bool b => exact keepsTo_pure _
  | none | character | item => exact (keepsTo_dispatch _ []).map _

theorem keepsTo_valueAt (href : ∀ key, KeepsTo stack (reference key) (ofKey key)) (n : Nat) :
    KeepsTo stack (valueAt scene reference n) (.ofKeys ofKey ([n].filterMap scene.keyAt?)) := by
  unfold valueAt
  split
  · rename_i hfirst
    rw [hfirst]
    exact keepsTo_addressee
  · cases hvalue : callerValue? scene.args n with
    | none =>
      have hnone : [n].filterMap scene.keyAt? = [] := by simp [Scene.keyAt?, hvalue]
      rw [hnone]
      exact KeepsTo.behind (keepsTo_note rfl) fun _ => keepsTo_pure _
    | some value =>
      have hkey : [n].filterMap scene.keyAt? = value.key?.toList := by
        rw [List.filterMap_cons, List.filterMap_nil, Scene.keyAt?, hvalue, Option.bind_some]
        cases value.key? <;> rfl
      rw [hkey]
      cases value with
      | key key =>
        show KeepsTo stack _ (.ofKeys ofKey [key])
        rw [Schedule.ofKeys_singleton]
        exact (href key).map _
      | int | float | bool | str => exact keepsTo_pure _

mutual

theorem keepsTo_evalArg (href : ∀ key, KeepsTo stack (reference key) (ofKey key)) :
    ∀ arg : Arg, KeepsTo stack (evalArg scene reference arg)
      (.ofKeys ofKey (arg.positions.filterMap scene.keyAt?))
  | .call name args => by
    rw [evalArg, Arg.positions, ← Schedule.append_pure (.ofKeys _ _)]
    exact (keepsTo_evalArgs href args).bind fun values => (keepsTo_dispatch name values).map _
  | .str _ | .int _ | .float _ | .bool _ => by
    rw [evalArg]
    exact keepsTo_pure _
  | .positional n => by
    rw [evalArg]
    exact keepsTo_valueAt href n

theorem keepsTo_evalArgs (href : ∀ key, KeepsTo stack (reference key) (ofKey key)) :
    ∀ args : List Arg, KeepsTo stack (evalArgs scene reference args)
      (.ofKeys ofKey ((Arg.positionsAll args).filterMap scene.keyAt?))
  | [] => by
    rw [evalArgs]
    exact keepsTo_pure []
  | arg :: args => by
    rw [evalArgs, Arg.positionsAll, List.filterMap_append, Schedule.ofKeys_append]
    exact (keepsTo_evalArg href arg).bind fun value => (keepsTo_evalArgs href args).map _

end

theorem keepsTo_evalNode (href : ∀ key, KeepsTo stack (reference key) (ofKey key)) (node : Node) :
    KeepsTo stack (evalNode scene reference node)
      (.ofKeys ofKey (node.positions.filterMap scene.keyAt?)) := by
  cases node with
  | text s => exact keepsTo_pure s
  | call c =>
    rw [Node.positions, ← Schedule.append_pure (.ofKeys _ _)]
    exact (keepsTo_evalArgs href c.args).bind fun values => keepsTo_dispatch c.name values
  | positional n => exact (keepsTo_valueAt href n).map _

theorem keepsTo_evalNodes (href : ∀ key, KeepsTo stack (reference key) (ofKey key)) :
    ∀ nodes : List Node, KeepsTo stack (nodes.mapM (evalNode scene reference))
      (.ofKeys ofKey ((nodes.flatMap Node.positions).filterMap scene.keyAt?))
  | [] => by
    rw [List.mapM_nil]
    exact keepsTo_pure []
  | node :: nodes => by
    rw [List.mapM_cons, List.flatMap_cons, List.filterMap_append, Schedule.ofKeys_append]
    exact (keepsTo_evalNode href node).bind fun text => (keepsTo_evalNodes href nodes).map _

theorem keepsTo_evalExpression (href : ∀ key, KeepsTo stack (reference key) (ofKey key))
    (e : Expression) : KeepsTo stack (evalExpression scene reference e)
      (.ofKeys ofKey (scene.keysIn e)) :=
  (keepsTo_evalNodes href e.nodes).map String.join

theorem renderBody_variants {key : String} {e : Expression} {es : List Expression}
    (h : scene.entry? key = some (.variants (e :: es))) :
    renderBody scene reference key = draw (es.length + 1) >>= fun index =>
      match (e :: es)[index]? with
      | some e => evalExpression scene reference e
      | none   => pure "" := by
  rw [renderBody, h]
  rfl

/-- A key that no resource defines mentions nothing. -/
theorem keepsTo_renderRaw {key : String} (h : scene.entry? key = none) :
    KeepsTo stack (renderRaw key (scene.raw? key)) (.ofBody scene ofKey key) := by
  have hgroup : scene.group? key = (scene.raw? key).bind RawText.group? := by
    rw [Scene.group?, h]
  have hmentioned : ∀ index, scene.mentioned key index = [] := fun index => by
    rw [Scene.mentioned, h]
  cases hraw : scene.raw? key with
  | none =>
    rw [hraw] at hgroup
    rw [Schedule.ofBody_of_none hgroup, hmentioned]
    exact KeepsTo.behind (keepsTo_note rfl) fun _ => keepsTo_pure _
  | some raw =>
    rw [hraw] at hgroup
    cases raw with
    | text s =>
      rw [Schedule.ofBody_of_none hgroup, hmentioned]
      exact keepsTo_pure s
    | list items =>
      cases items with
      | nil =>
        rw [Schedule.ofBody_of_none hgroup, hmentioned]
        exact keepsTo_pure ""
      | cons item items =>
        rw [Schedule.ofBody_of_some hgroup, renderRaw, map_eq_pure_bind]
        refine KeepsTo.ofDraw fun index => ?_
        rw [hmentioned]
        exact keepsTo_pure _

theorem keepsTo_renderBody (href : ∀ key, KeepsTo stack (reference key) (ofKey key))
    (key : String) : KeepsTo stack (renderBody scene reference key) (.ofBody scene ofKey key) := by
  cases hentry : scene.entry? key with
  | none =>
    rw [renderBody, hentry]
    exact keepsTo_renderRaw hentry
  | some entry =>
    have hgroup : scene.group? key = entry.group? := by rw [Scene.group?, hentry]
    have hmentioned : ∀ index, scene.mentioned key index =
        (entry.expressions[index]?.map scene.keysIn).getD [] := fun index => by
      rw [Scene.mentioned, hentry]
    cases entry with
    | single e =>
      rw [renderBody, hentry, Schedule.ofBody_of_none hgroup, hmentioned]
      exact keepsTo_evalExpression href e
    | variants es =>
      cases es with
      | nil =>
        rw [renderBody, hentry, Schedule.ofBody_of_none hgroup, hmentioned]
        exact keepsTo_pure ""
      | cons e es =>
        rw [renderBody_variants hentry, Schedule.ofBody_of_some hgroup]
        refine KeepsTo.ofDraw fun index => ?_
        rw [hmentioned]
        simp only [Entry.expressions]
        cases (e :: es)[index]? with
        | none => exact keepsTo_pure ""
        | some picked => exact keepsTo_evalExpression href picked

theorem keepsTo_under_refused {key : String} {reason : KeyStack.Refusal} (body : RenderM String)
    (h : stack.push key = .error reason) :
    KeepsTo stack (under key body) (pure [.refused key reason]) where
  restores state hs := by
    rw [under_of_refused body (hs ▸ h)]
    exact hs
  source state hs := by
    rw [under_of_refused body (hs ▸ h)]
    rfl
  steps state hs := by
    rw [under_of_refused body (hs ▸ h)]
    rfl

theorem keepsTo_under {key : String} {stack' : KeyStack} {body : RenderM String} {y : Schedule}
    (h : stack.push key = .ok stack') (hbody : KeepsTo stack' body y) :
    KeepsTo stack (under key body) ((.opened stack'.keys :: ·) <$> y) where
  restores state hs := by
    rw [under_of_push body (hs ▸ h)]
    show (body (state.opened stack')).2.stack.pop = stack
    rw [hbody.restores (state.opened stack') rfl, (KeyStack.push_eq_ok.1 h).2.2]
    rfl
  source state hs := by
    rw [under_of_push body (hs ▸ h)]
    exact hbody.source (state.opened stack') rfl
  steps state hs := by
    rw [under_of_push body (hs ▸ h), Schedule.cons_apply, List.reverse_cons, List.append_assoc]
    exact hbody.steps (state.opened stack') rfl

/-- With room for as many keys as the stack may still take, a key keeps to its schedule. -/
theorem keepsTo_renderKey {limit : Nat} : ∀ (room : Nat) (above : List String) (key : String),
    limit ≤ room + above.length →
      KeepsTo ⟨limit, above⟩ (renderKey scene room key) (.ofKey scene limit above key) := by
  intro room
  induction room with
  | zero =>
    intro above key hroom
    have hfull : limit ≤ above.length := by omega
    have hpush : KeyStack.push ⟨limit, above⟩ key = .error .tooDeep := if_pos hfull
    rw [renderKey, Schedule.ofKey_of_refused hpush]
    exact keepsTo_under_refused _ hpush
  | succ room ih =>
    intro above key hroom
    rw [renderKey]
    cases hpush : KeyStack.push ⟨limit, above⟩ key with
    | error reason =>
      rw [Schedule.ofKey_of_refused hpush]
      exact keepsTo_under_refused _ hpush
    | ok stack' =>
      obtain ⟨hlimit, hnew, rfl⟩ := KeyStack.push_eq_ok.1 hpush
      rw [Schedule.ofKey_of_taken hlimit hnew]
      have hroom' : limit ≤ room + (key :: above).length := by
        rw [List.length_cons]
        omega
      exact keepsTo_under hpush
        (keepsTo_renderBody (fun nested => ih (key :: above) nested hroom') key)

end

end Render

theorem Scene.render_schedule (scene : Scene) (limit : Nat) (source : Source) (key : String) :
    ((scene.render limit source key).trace.filter Event.isStep,
      (scene.render limit source key).source) = Schedule.ofKey scene limit [] key source := by
  have hkeeps : KeepsTo ⟨limit, []⟩ (renderKey scene limit key) (.ofKey scene limit [] key) :=
    keepsTo_renderKey limit [] key (Nat.le_refl _)
  have hsteps := hkeeps.steps ⟨⟨limit, []⟩, source, []⟩ rfl
  rw [List.filter_nil, List.append_nil] at hsteps
  refine Prod.ext ?_ (hkeeps.source ⟨⟨limit, []⟩, source, []⟩ rfl)
  rw [← List.reverse_reverse (Schedule.ofKey scene limit [] key source).1, ← hsteps]
  exact List.filter_reverse

/-- What the steps of a trace are enough for. -/
theorem filterMap_filter_isStep {f : Event → Option Nat}
    (h : ∀ event, event.isStep = false → f event = none) (trace : List Event) :
    (trace.filter Event.isStep).filterMap f = trace.filterMap f := by
  rw [List.filterMap_filter]
  congr 1
  funext event
  split
  · rfl
  · exact (h event (Bool.eq_false_iff.2 ‹_›)).symm

theorem Scene.render_balanced (scene : Scene) (limit : Nat) (source : Source) (key : String) :
    let found := scene.render limit source key
    found.trace.filterMap Event.size? = found.trace.filterMap (Event.group? scene) ∧
      found.source = (found.trace.filterMap Event.size?).foldl Source.past source := by
  intro found
  have hsize : ∀ event : Event, event.isStep = false → event.size? = none := by
    intro event h
    cases event <;> first | rfl | cases h
  have hgroup : ∀ event : Event, event.isStep = false → event.group? scene = none := by
    intro event h
    cases event <;> first | rfl | cases h
  obtain ⟨hsteps, hsource⟩ := Prod.mk.inj (scene.render_schedule limit source key)
  have hbalanced : Schedule.IsBalanced scene (.ofKey scene limit [] key) :=
    Schedule.isBalanced_ofKey [] key
  rw [← filterMap_filter_isStep hsize, ← filterMap_filter_isStep hgroup, hsteps, hsource]
  exact ⟨hbalanced.groups source, hbalanced.words source⟩

/-! ## Lookups in a row -/

structure Query where
  key     : String
  subject : Subject
  args    : List Value

/-- A lookup in a row of lookups, and whether it is one of those that another row has, too. -/
structure Turn where
  query  : Query
  common : Bool

namespace Store

def look (st : Store) (q : Query) : Rendering := st.lookupWith q.key q.subject q.args

/-- The texts of lookups, one after the other. -/
def texts (st : Store) : List Query → List String
  | []      => []
  | q :: qs => (st.look q).text :: (st.after (st.look q)).texts qs

/-- The texts of the common ones among lookups, one after the other. -/
def commonTexts (st : Store) : List Turn → List String
  | []      => []
  | t :: ts =>
    let found := st.look t.query
    let rest := (st.after found).commonTexts ts
    if t.common then found.text :: rest else rest

/-- None of the keys of the lookup stands for a group. -/
def IsQuiet (st : Store) (q : Query) : Prop :=
  ∀ key ∈ lookupKeys q.key q.args, (st.scene q.subject q.args).group? key = none

instance (st : Store) (q : Query) : Decidable (st.IsQuiet q) :=
  inferInstanceAs (Decidable (∀ key ∈ lookupKeys q.key q.args, _ = none))

variable {st : Store}

theorem after_of_isQuiet {q : Query} (h : st.IsQuiet q) : st.after (st.look q) = st := by
  have hargs : ∀ nested, .key nested ∈ (st.scene q.subject q.args).args →
      nested ∈ lookupKeys q.key q.args := fun nested => mem_lookupKeys_of_mem
  obtain ⟨text, htext, -⟩ :=
    Stackless.silently_renderKey hargs h [] q.key List.mem_cons_self
  have hsource : (st.look q).source = st.source := (Scene.render_of_pure htext st.source).2
  rw [after, hsource]

theorem commonTexts_eq (ts : List Turn) (h : ∀ t ∈ ts, t.common = false → st.IsQuiet t.query) :
    st.commonTexts ts = st.texts ((ts.filter Turn.common).map Turn.query) := by
  induction ts generalizing st with
  | nil => rfl
  | cons t ts ih =>
    rw [List.forall_mem_cons] at h
    rw [commonTexts]
    -- whether a lookup is quiet is for the messages to say, and they stay as they are
    cases hcommon : t.common with
    | true =>
      rw [if_pos rfl, List.filter_cons_of_pos hcommon, List.map_cons, texts]
      exact congrArg _ (ih h.2)
    | false =>
      have hneg : ¬ t.common = true := Bool.eq_false_iff.1 hcommon
      rw [if_neg Bool.false_ne_true, List.filter_cons_of_neg hneg,
        after_of_isQuiet (h.1 hcommon)]
      exact ih h.2

end Store

/-- **Nothing but groups is drawn from, and each group once.**  Lookups without groups that are put
in between others change none of their texts.  Any lookup keeps to the schedule of its keys, and so
draws once for each group that begins to render, in the same order.  Every draw takes words from the
source, and nothing else does. -/
theorem Store.lookups_draws (st : Store) :
    (∀ ts ts' : List Turn,
      (∀ t ∈ ts ++ ts', t.common = false → st.IsQuiet t.query) →
      (ts.filter Turn.common).map Turn.query = (ts'.filter Turn.common).map Turn.query →
        st.commonTexts ts = st.commonTexts ts') ∧
    ∀ key subject args,
      let scene := st.scene subject args
      let found := st.lookupWith key subject args
      let sizes := found.trace.filterMap Event.size?
      (found.trace.filter Event.isStep, found.source) =
          Schedule.ofKey scene st.maxDepth [] key st.source ∧
        sizes = found.trace.filterMap (Event.group? scene) ∧
        found.source = sizes.foldl Source.past st.source ∧
        st.source.drawn + sizes.length ≤ found.source.drawn := by
  refine ⟨fun ts ts' hquiet hcommon => ?_, fun key subject args => ?_⟩
  · rw [List.forall_mem_append] at hquiet
    rw [commonTexts_eq ts hquiet.1, commonTexts_eq ts' hquiet.2, hcommon]
  · intro scene found sizes
    obtain ⟨hgroups, hwords⟩ := scene.render_balanced st.maxDepth st.source key
    have hsource : found.source = sizes.foldl Source.past st.source := hwords
    refine ⟨scene.render_schedule st.maxDepth st.source key, hgroups, hsource, ?_⟩
    rw [hsource]
    exact Source.drawn_add_length_le sizes st.source

/-- A group with a member that mentions another group, and a message without a group in between. -/
theorem Store.lookups_draws_between :
    let entries : Entries := (((∅ : Entries).insert "a" (.single ⟨[.text "x"]⟩)).insert "b"
      (.variants [⟨[.text "y"]⟩])).insert "g" (.variants [⟨[.positional 2]⟩, ⟨[.text "z"]⟩])
    let st : Store := { source := .cycle #[7, 5000000], entries := entries }
    let group : Turn := ⟨⟨"g", .none, [.key "b"]⟩, true⟩
    let between : Turn := ⟨⟨"a", .none, [.int 1]⟩, false⟩
    (∀ t ∈ [group, between, group] ++ [group, group], t.common = false → st.IsQuiet t.query) ∧
      st.commonTexts [group, between, group] = st.commonTexts [group, group] ∧
      (st.look group.query).trace.filterMap Event.size? = [2, 1] := by
  intro entries st group between
  have hquiet : ∀ t ∈ [group, between, group] ++ [group, group],
      t.common = false → st.IsQuiet t.query := by
    decide +kernel
  obtain ⟨hcommon, hdraws⟩ := lookups_draws st
  obtain ⟨-, hgroups, -⟩ := hdraws "g" .none [.key "b"]
  refine ⟨hquiet, hcommon _ _ hquiet rfl, hgroups.trans ?_⟩
  decide +kernel

end Phrasebook
