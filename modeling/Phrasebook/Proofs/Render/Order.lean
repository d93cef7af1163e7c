import Phrasebook.Proofs.Render.Dispatches
import Phrasebook.Proofs.Template.CallTree
/-!
# Order — every function is called once, the innermost first

Without keys among the values, an expression has nothing but calls to evaluate.  They are made in
the post-order of its call trees, whatever comes of each of them: a call that fails leaves its
placeholder, and the calls around it are made all the same.
-/
namespace Phrasebook

open CallTree

namespace Render

/-- The name that was called, if this is what happened. -/
def Event.called? : Event → Option String
  | .dispatched name _ _ => some name
  | _                    => none

end Render

/-- The name that is called upon a request; a truth value is its own addressee. -/
def Subject.called? (subject : Subject) : Request → Option String
  | .call name => some name
  | .addressee => subject.addressee?

namespace Render

/-- From any state, `x` calls these names in this order, and no others. -/
def Dispatches {α : Type} (x : RenderM α) (names : List String) : Prop :=
  ∀ state, (x state).2.trace.filterMap Event.called? =
    names.reverse ++ state.trace.filterMap Event.called?

section

variable {α β : Type} {x : RenderM α} {names more : List String}

theorem dispatches_pure (a : α) : Dispatches (pure a) [] := fun _ => rfl

theorem Dispatches.bind {f : α → RenderM β} (hx : Dispatches x names)
    (hf : ∀ a, Dispatches (f a) more) : Dispatches (x >>= f) (names ++ more) := by
  intro state
  rw [bind_apply, hf, hx, List.reverse_append, List.append_assoc]

theorem Dispatches.map (f : α → β) (h : Dispatches x names) : Dispatches (f <$> x) names := by
  rw [← names.append_nil]
  exact h.bind fun a => dispatches_pure (f a)

theorem Dispatches.mapM {f : α → RenderM β} {g : α → List String}
    (h : ∀ a, Dispatches (f a) (g a)) : ∀ as : List α, Dispatches (as.mapM f) (as.flatMap g)
  | [] => by
    rw [List.mapM_nil]
    exact dispatches_pure []
  | a :: as => by
    rw [List.mapM_cons, List.flatMap_cons]
    exact (h a).bind fun b => (Dispatches.mapM h as).map (b :: ·)

theorem dispatches_note {event : Event} (h : event.called? = none) :
    Dispatches (note event) [] :=
  fun _ => List.filterMap_cons_none h

/-- A call is one dispatch, whatever the tables make of it. -/
theorem dispatches_dispatch (scene : Scene) (name : String) (args : List Value) :
    Dispatches (dispatch scene name args) [name] :=
  fun _ => rfl

end

section

variable {scene : Scene} {reference : String → RenderM String}

theorem dispatches_addressee :
    Dispatches (addressee scene) ([Request.addressee].filterMap scene.subject.called?) := by
  unfold addressee
  cases scene.subject with
  | bool b => exact dispatches_pure _
  | none => exact (dispatches_dispatch scene "you" []).map _
  | character | item => exact (dispatches_dispatch scene "name" []).map _

theorem dispatches_valueAt (hargs : ∀ key, .key key ∉ scene.args) (position : Nat) :
    Dispatches (valueAt scene reference position)
      ((postorderAll (positionTrees position)).filterMap scene.subject.called?) := by
  unfold valueAt positionTrees
  split
  · exact dispatches_addressee
  · split
    · exact absurd (mem_of_callerValue? ‹_›) (hargs _)
    · exact dispatches_pure _
    · exact (dispatches_note rfl).bind fun _ => dispatches_pure _

mutual

theorem dispatches_evalArg (hargs : ∀ key, .key key ∉ scene.args) : ∀ arg : Arg,
    Dispatches (evalArg scene reference arg)
      ((postorderAll arg.callTrees).filterMap scene.subject.called?)
  | .call name args => by
    rw [evalArg, Arg.callTrees, postorderAll, postorder, postorderAll, List.append_nil,
      List.filterMap_append]
    exact (dispatches_evalArgs hargs args).bind fun values =>
      (dispatches_dispatch scene name values).map _
  | .positional n => by
    rw [evalArg, Arg.callTrees]
    exact dispatches_valueAt hargs n
  | .str _ | .int _ | .float _ | .bool _ => by
    rw [evalArg]
    exact dispatches_pure _

theorem dispatches_evalArgs (hargs : ∀ key, .key key ∉ scene.args) : ∀ args : List Arg,
    Dispatches (evalArgs scene reference args)
      ((postorderAll (Arg.callTreesAll args)).filterMap scene.subject.called?)
  | [] => by
    rw [evalArgs]
    exact dispatches_pure []
  | arg :: args => by
    rw [evalArgs, Arg.callTreesAll, postorderAll_append, List.filterMap_append]
    exact (dispatches_evalArg hargs arg).bind fun value =>
      (dispatches_evalArgs hargs args).map (value :: ·)

end

theorem dispatches_evalNode (hargs : ∀ key, .key key ∉ scene.args) (node : Node) :
    Dispatches (evalNode scene reference node)
      ((postorderAll node.callTrees).filterMap scene.subject.called?) := by
  cases node with
  | text s => exact dispatches_pure s
  | call c =>
    rw [Node.callTrees, postorderAll, postorder, postorderAll, List.append_nil,
      List.filterMap_append]
    exact (dispatches_evalArgs hargs c.args).bind (dispatches_dispatch scene c.name)
  | positional n => exact (dispatches_valueAt hargs n).map _

theorem dispatches_evalExpression (hargs : ∀ key, .key key ∉ scene.args) (e : Expression) :
    Dispatches (evalExpression scene reference e)
      ((postorderAll e.callTrees).filterMap scene.subject.called?) := by
  rw [Expression.callTrees, postorderAll_eq_flatMap, List.flatMap_assoc, List.filterMap_flatMap]
  refine (Dispatches.mapM (fun node => ?_) e.nodes).map String.join
  rw [← postorderAll_eq_flatMap]
  exact dispatches_evalNode hargs node

end

end Render

theorem Scene.dispatches_evaluate (scene : Scene) (hargs : ∀ key, .key key ∉ scene.args)
    (stack : KeyStack) (source : Source) (e : Expression) :
    (scene.evaluate stack source e).trace.filterMap Render.Event.called? =
      (postorderAll e.callTrees).filterMap scene.subject.called? := by
  have htrace : (scene.evaluate stack source e).trace =
      (Render.evalExpression scene (Render.renderKey scene stack.limit) e
        ⟨stack, source, []⟩).2.trace.reverse := rfl
  rw [htrace, List.filterMap_reverse, Render.dispatches_evalExpression hargs e, List.filterMap_nil,
    List.append_nil, List.reverse_reverse]

/-- **Every call is made once, behind the calls in its arguments**, and `_1` calls the addressee's
function in its place.  The calls are those that the walk over the expression finds, which names
every call before the calls in its arguments; with other functions, or none, they are the same. -/
theorem Scene.dispatches_in_postorder (scene : Scene) (hargs : ∀ key, .key key ∉ scene.args)
    (stack : KeyStack) (source : Source) (e : Expression) :
    (scene.evaluate stack source e).trace.filterMap Render.Event.called? =
        (postorderAll e.callTrees).filterMap scene.subject.called? ∧
      ((postorderAll e.callTrees).filterMap Request.spelled?).Perm e.names ∧
      e.names = (preorderAll e.callTrees).filterMap Request.spelled? ∧
      ∀ (registry : Registry) (language : Language),
        let other := { scene with registry := registry, language := language }
        (other.evaluate stack source e).trace.filterMap Render.Event.called? =
          (scene.evaluate stack source e).trace.filterMap Render.Event.called? := by
  have hnames := e.names_eq_preorder
  refine ⟨scene.dispatches_evaluate hargs stack source e, ?_, hnames, fun registry language => ?_⟩
  · rw [hnames]
    exact (postorderAll_perm_preorderAll e.callTrees).filterMap _
  · exact (dispatches_evaluate { scene with registry := registry, language := language } hargs stack
      source e).trans (scene.dispatches_evaluate hargs stack source e).symm

/-- An ending that complains, inside a function that nobody defines, inside a name; then `_1`. -/
theorem Scene.dispatches_around_failures :
    (∀ key, .key key ∉ [Value.str "x"]) ∧
      (Scene.evaluate ⟨fun _ => none, fun _ => none, .standard, .english, .character default,
          [.str "x"]⟩ ⟨16, []⟩ (.cycle #[])
        ⟨[.call ⟨"name", [.call "nobody" [.positional 1, .call "s" [.int 1, .str "x"]],
          .call "he" []]⟩, .positional 1]⟩).trace.filterMap Render.Event.called? =
        ["name", "s", "nobody", "he", "name", "name"] := by
  have hargs : ∀ key, .key key ∉ [Value.str "x"] := by simp
  exact ⟨hargs, (dispatches_in_postorder _ hargs _ _ _).1⟩

end Phrasebook
