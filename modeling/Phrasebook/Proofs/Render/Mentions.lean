import Phrasebook.Proofs.Render.Stackless
/-!
# Mentions — what a message asks for

A message asks for the values of the positions in it, whatever the calls that they stand in, from
left to right.  So two renderings of it are alike as soon as the values of these positions are.
-/
namespace Phrasebook

/-! ## Positions -/

mutual

/-- The positions in an argument, from left to right. -/
def Arg.positions : Arg → List Nat
  | .call _ args  => Arg.positionsAll args
  | .positional n => [n]
  | _             => []

def Arg.positionsAll : List Arg → List Nat
  | []          => []
  | arg :: args => arg.positions ++ Arg.positionsAll args

end

def Node.positions : Node → List Nat
  | .text _       => []
  | .call c       => Arg.positionsAll c.args
  | .positional n => [n]

/-- The positions in an expression, as spans and in calls at any depth, from left to right. -/
def Expression.positions (e : Expression) : List Nat := e.nodes.flatMap Node.positions

/-! ## Keys -/

/-- The key that a value names. -/
def Value.key? : Value → Option String
  | .key path => some path
  | _         => none

/-- All keys that a lookup may render: its own, and those among its values. -/
def lookupKeys (key : String) (args : List Value) : List String := key :: args.filterMap Value.key?

theorem mem_lookupKeys_of_mem {key nested : String} {args : List Value}
    (h : .key nested ∈ args) : nested ∈ lookupKeys key args :=
  List.mem_cons_of_mem _ (List.mem_filterMap.2 ⟨_, h, rfl⟩)

theorem Value.key?_eq_some {value : Value} {key : String} :
    value.key? = some key ↔ value = .key key := by
  cases value <;> simp [key?]

/-! ## Groups -/

/-- The size of a group from which one member is picked, unless there is nothing to pick. -/
def groupSize? {α : Type} : List α → Option Nat
  | []           => none
  | _ :: members => some (members.length + 1)

def Entry.group? : Entry → Option Nat
  | .single _    => none
  | .variants es => groupSize? es

def RawText.group? : RawText → Option Nat
  | .text _     => none
  | .list items => groupSize? items

namespace Scene

/-- The key that is bound to a position. -/
def keyAt? (scene : Scene) (position : Nat) : Option String :=
  (callerValue? scene.args position).bind Value.key?

/-- The size of the group that a key stands for, if it stands for one. -/
def group? (scene : Scene) (key : String) : Option Nat :=
  match scene.entry? key with
  | some entry => entry.group?
  | none       => (scene.raw? key).bind RawText.group?

/-- The message of the key, or one of its variants, asks for the value of the position. -/
def Mentions (scene : Scene) (key : String) (position : Nat) : Prop :=
  ∃ entry, scene.entry? key = some entry ∧ ∃ e ∈ entry.expressions, position ∈ e.positions

/-- The same scene with other values. -/
def given (scene : Scene) (args : List Value) : Scene := { scene with args := args }

theorem keyAt?_eq_some {scene : Scene} {position : Nat} {key : String} :
    scene.keyAt? position = some key ↔ callerValue? scene.args position = some (.key key) := by
  simp [keyAt?, Option.bind_eq_some_iff, Value.key?_eq_some]

/-- The message of a key asks for the value of a position that is bound to another key. -/
def Refers (scene : Scene) (key nested : String) : Prop :=
  ∃ position, scene.Mentions key position ∧ scene.keyAt? position = some nested

theorem mem_of_keyAt? {scene : Scene} {position : Nat} {key : String}
    (h : scene.keyAt? position = some key) : .key key ∈ scene.args :=
  Render.mem_of_callerValue? (keyAt?_eq_some.1 h)

theorem mem_of_refers {scene : Scene} {key nested : String} (h : scene.Refers key nested) :
    .key nested ∈ scene.args :=
  h.elim fun _ hposition => mem_of_keyAt? hposition.2

end Scene

/-! ## Alike renderings -/

namespace Stackless

/-- A relation between computations that holds step by step. -/
structure IsCongruence (R : ∀ {α : Type}, DrawM α → DrawM α → Prop) : Prop where
  ofPure : ∀ {α : Type} (a : α), R (pure a) (pure a)
  ofBind : ∀ {α β : Type} {x y : DrawM α} {f g : α → DrawM β}, R x y → (∀ a, R (f a) (g a)) →
    R (x >>= f) (y >>= g)

theorem isCongruence_eq : IsCongruence Eq where
  ofPure _ := rfl
  ofBind hx hf := by rw [hx, funext hf]

/-- Both come to the same value, and neither draws. -/
def Silently {α : Type} (x y : DrawM α) : Prop := ∃ a, x = pure a ∧ y = pure a

theorem isCongruence_silently : IsCongruence Silently where
  ofPure a := ⟨a, rfl, rfl⟩
  ofBind := by
    rintro α β _ _ f g ⟨a, rfl, rfl⟩ hf
    rw [pure_bind, pure_bind]
    exact hf a

section

variable {R : ∀ {α : Type}, DrawM α → DrawM α → Prop}

namespace IsCongruence

variable {α β : Type} {x y : DrawM α}

theorem map (hR : IsCongruence R) (f : α → β) (h : R x y) : R (f <$> x) (f <$> y) :=
  hR.ofBind h fun a => hR.ofPure (f a)

theorem mapM (hR : IsCongruence R) {f g : α → DrawM β} : ∀ {as : List α},
    (∀ a ∈ as, R (f a) (g a)) → R (as.mapM f) (as.mapM g)
  | [], _ => by
    rw [List.mapM_nil, List.mapM_nil]
    exact hR.ofPure []
  | a :: as, h => by
    rw [List.forall_mem_cons] at h
    rw [List.mapM_cons, List.mapM_cons]
    exact hR.ofBind h.1 fun b => hR.ofBind (mapM hR h.2) fun bs => hR.ofPure (b :: bs)

end IsCongruence

variable {scene : Scene} {args' : List Value} {reference reference' : String → DrawM String}

theorem valueAt_of_key {position : Nat} {key : String} (h : scene.keyAt? position = some key) :
    valueAt scene reference position = Value.str <$> reference key := by
  have hvalue := Scene.keyAt?_eq_some.1 h
  have hposition : position ≠ 1 := by
    rintro rfl
    cases hvalue
  rw [valueAt, if_neg hposition, hvalue]

theorem valueAt_of_no_key {position : Nat} (h : scene.keyAt? position = none) :
    valueAt scene reference position = pure (if position = 1 then addressee scene
      else (callerValue? scene.args position).getD (.str "")) := by
  unfold valueAt
  split
  · rfl
  · cases hvalue : callerValue? scene.args position with
    | none => rfl
    | some value =>
      cases value with
      | key key => cases h.symm.trans (Scene.keyAt?_eq_some.2 hvalue)
      | int | float | bool | str => rfl

theorem valueAt_related (hR : IsCongruence R) {position : Nat}
    (hnone : scene.keyAt? position = none →
      callerValue? args' position = callerValue? scene.args position)
    (hkey : ∀ key, scene.keyAt? position = some key → R (Value.str <$> reference key)
      (valueAt (scene.given args') reference' position)) :
    R (valueAt scene reference position) (valueAt (scene.given args') reference' position) := by
  cases hkey? : scene.keyAt? position with
  | none =>
    have hvalue := hnone hkey?
    have hkey' : (scene.given args').keyAt? position = none := by
      rw [← hkey?, Scene.keyAt?, Scene.keyAt?, ← hvalue]
      rfl
    rw [valueAt_of_no_key hkey?, valueAt_of_no_key hkey', ← hvalue]
    exact hR.ofPure _
  | some key =>
    rw [valueAt_of_key hkey?]
    exact hkey key hkey?

mutual

theorem evalArg_related (hR : IsCongruence R) : ∀ {arg : Arg},
    (∀ n ∈ arg.positions,
      R (valueAt scene reference n) (valueAt (scene.given args') reference' n)) →
    R (evalArg scene reference arg) (evalArg (scene.given args') reference' arg)
  | .call name args, h => by
    rw [evalArg, evalArg]
    exact hR.ofBind (evalArgs_related hR h) fun values => hR.ofPure _
  | .str _, _ | .int _, _ | .float _, _ | .bool _, _ => by
    rw [evalArg, evalArg]
    exact hR.ofPure _
  | .positional n, h => by
    rw [evalArg, evalArg]
    exact h n (List.mem_singleton_self n)

theorem evalArgs_related (hR : IsCongruence R) : ∀ {args : List Arg},
    (∀ n ∈ Arg.positionsAll args,
      R (valueAt scene reference n) (valueAt (scene.given args') reference' n)) →
    R (evalArgs scene reference args) (evalArgs (scene.given args') reference' args)
  | [], _ => by
    rw [evalArgs, evalArgs]
    exact hR.ofPure []
  | arg :: args, h => by
    rw [Arg.positionsAll, List.forall_mem_append] at h
    rw [evalArgs, evalArgs]
    exact hR.ofBind (evalArg_related hR h.1) fun value =>
      hR.ofBind (evalArgs_related hR h.2) fun values => hR.ofPure (value :: values)

end

theorem evalNode_related (hR : IsCongruence R) {node : Node}
    (h : ∀ n ∈ node.positions,
      R (valueAt scene reference n) (valueAt (scene.given args') reference' n)) :
    R (evalNode scene reference node) (evalNode (scene.given args') reference' node) := by
  cases node with
  | text s => exact hR.ofPure s
  | call c => exact hR.map _ (evalArgs_related hR h)
  | positional n => exact hR.map _ (h n (List.mem_singleton_self n))

theorem evalExpression_related (hR : IsCongruence R) {e : Expression}
    (h : ∀ n ∈ e.positions,
      R (valueAt scene reference n) (valueAt (scene.given args') reference' n)) :
    R (evalExpression scene reference e) (evalExpression (scene.given args') reference' e) :=
  hR.map _ (hR.mapM fun _ hnode => evalNode_related hR fun n hn =>
    h n (List.mem_flatMap.2 ⟨_, hnode, hn⟩))

theorem renderBody_variants {key : String} {e : Expression} {es : List Expression}
    (h : scene.entry? key = some (.variants (e :: es))) :
    renderBody scene reference key = draw (es.length + 1) >>= fun index =>
      match (e :: es)[index]? with
      | some e => evalExpression scene reference e
      | none   => pure "" := by
  rw [renderBody, h]
  rfl

theorem renderRaw_related (hR : IsCongruence R) {raw : Option RawText}
    (hgroup : ∀ size, raw.bind RawText.group? = some size → R (draw size) (draw size)) :
    R (renderRaw raw) (renderRaw raw) := by
  cases raw with
  | none => exact hR.ofPure ""
  | some raw =>
    cases raw with
    | text s => exact hR.ofPure s
    | list items =>
      cases items with
      | nil => exact hR.ofPure ""
      | cons item items => exact hR.map _ (hgroup _ rfl)

theorem renderBody_related (hR : IsCongruence R) {key : String}
    (hgroup : ∀ size, scene.group? key = some size → R (draw size) (draw size))
    (h : ∀ n, scene.Mentions key n →
      R (valueAt scene reference n) (valueAt (scene.given args') reference' n)) :
    R (renderBody scene reference key) (renderBody (scene.given args') reference' key) := by
  have hentry' : Scene.entry? (scene.given args') key = scene.entry? key := rfl
  rw [Scene.group?] at hgroup
  cases hentry : scene.entry? key with
  | none =>
    have hraw' : (scene.given args').raw? key = scene.raw? key := rfl
    rw [hentry] at hgroup hentry'
    rw [renderBody, renderBody, hentry, hentry', hraw']
    exact renderRaw_related hR hgroup
  | some entry =>
    have hexpression : ∀ e ∈ entry.expressions,
        R (evalExpression scene reference e) (evalExpression (scene.given args') reference' e) :=
      fun e he => evalExpression_related hR fun n hn => h n ⟨entry, hentry, e, he, hn⟩
    rw [hentry] at hgroup hentry'
    cases entry with
    | single e =>
      rw [renderBody, renderBody, hentry, hentry']
      exact hexpression e (List.mem_singleton_self e)
    | variants es =>
      cases es with
      | nil =>
        rw [renderBody, renderBody, hentry, hentry']
        exact hR.ofPure ""
      | cons e es =>
        rw [renderBody_variants hentry, renderBody_variants hentry']
        refine hR.ofBind (hgroup _ rfl) fun index => ?_
        -- what is picked is one of the variants
        cases hpicked : (e :: es)[index]? with
        | none => exact hR.ofPure ""
        | some picked => exact hexpression picked (List.mem_of_getElem? hpicked)

/-- The body of a key is rendered alike as soon as the keys that it refers to are. -/
theorem renderBody_alike (hR : IsCongruence R) {key : String}
    (hgroup : ∀ size, scene.group? key = some size → R (draw size) (draw size))
    (h : ∀ nested, scene.Refers key nested → R (reference nested) (reference' nested)) :
    R (renderBody scene reference key) (renderBody scene reference' key) := by
  show R (renderBody scene reference key) (renderBody (scene.given scene.args) reference' key)
  refine renderBody_related hR hgroup fun n hn => ?_
  refine valueAt_related hR (fun _ => rfl) fun nested hnested => ?_
  have hvalue : valueAt (scene.given scene.args) reference' n = Value.str <$> reference' nested :=
    valueAt_of_key hnested
  rw [hvalue]
  exact hR.map _ (h nested ⟨n, hn, hnested⟩)

end

theorem silently_draw_of_no_group {scene : Scene} {key : String} (h : scene.group? key = none) :
    ∀ size, scene.group? key = some size → Silently (draw size) (draw size) := by
  intro size hsize
  cases h.symm.trans hsize

/-- Where no key stands for a group, nothing is drawn. -/
theorem silently_renderKey {scene : Scene} {known : List String} {limit : Nat}
    (hargs : ∀ key, .key key ∈ scene.args → key ∈ known)
    (hgroup : ∀ key ∈ known, scene.group? key = none) (above : List String) (key : String)
    (hkey : key ∈ known) :
    Silently (renderKey scene limit above key) (renderKey scene limit above key) := by
  by_cases hrefused : limit ≤ above.length ∨ key ∈ above
  · rw [renderKey_of_refused hrefused]
    exact ⟨"", rfl, rfl⟩
  · rw [not_or, Nat.not_le] at hrefused
    rw [renderKey_of_taken hrefused.1 hrefused.2]
    refine renderBody_alike isCongruence_silently (silently_draw_of_no_group (hgroup key hkey))
      fun nested hnested => ?_
    exact silently_renderKey hargs hgroup (key :: above) nested
      (hargs nested (Scene.mem_of_refers hnested))
termination_by limit - above.length
decreasing_by
  rw [List.length_cons]
  omega

end Stackless

theorem Scene.render_of_pure {scene : Scene} {limit : Nat} {key value : String}
    (h : Stackless.renderKey scene limit [] key = pure value) (source : Source) :
    (scene.render limit source key).text = value ∧
      (scene.render limit source key).source = source := by
  have hrender := scene.render_stackless limit source key
  rw [h] at hrender
  exact Prod.mk.inj hrender

end Phrasebook
