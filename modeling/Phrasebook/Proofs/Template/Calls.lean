import Phrasebook.Lint
/-!
# Calls by name — where a function is called

`Calls` says that a call of a name stands somewhere, at whatever depth; the walks over arguments,
expressions and entries list exactly these names.
-/
namespace Phrasebook

inductive Arg.Calls (name : String) : Arg → Prop
  | here (args : List Arg) : Calls name (.call name args)
  | inside {f : String} {args : List Arg} {arg : Arg} (hmem : arg ∈ args) (h : Calls name arg) :
    Calls name (.call f args)

def Node.Calls (name : String) : Node → Prop
  | .call c => Arg.Calls name (.call c.name c.args)
  | _       => False

def Expression.Calls (name : String) (e : Expression) : Prop := ∃ node ∈ e.nodes, node.Calls name

def Entry.Calls (name : String) (e : Entry) : Prop := ∃ x ∈ e.expressions, x.Calls name

mutual

theorem Arg.mem_names_iff {name : String} : ∀ arg : Arg, name ∈ arg.names ↔ arg.Calls name
  | .call f args => by
    rw [Arg.names, List.mem_cons, mem_namesAll_iff args]
    constructor
    · rintro (rfl | ⟨arg, hmem, h⟩)
      · exact .here args
      · exact .inside hmem h
    · intro h
      cases h with
      | here => exact .inl rfl
      | inside hmem h => exact .inr ⟨_, hmem, h⟩
  | .str _ | .int _ | .float _ | .bool _ | .positional _ => by
    simp only [Arg.names, List.not_mem_nil, false_iff]
    nofun

theorem Arg.mem_namesAll_iff {name : String} : ∀ args : List Arg,
    name ∈ Arg.namesAll args ↔ ∃ arg ∈ args, arg.Calls name
  | [] => by simp [Arg.namesAll]
  | arg :: args => by
    rw [Arg.namesAll, List.mem_append, mem_names_iff arg, mem_namesAll_iff args]
    simp

end

theorem Node.mem_names_iff {name : String} (node : Node) : name ∈ node.names ↔ node.Calls name := by
  cases node with
  | call c => rw [Node.Calls, ← Arg.mem_names_iff, Arg.names, Node.names, Call.names]
  | text | positional => simp [Node.names, Node.Calls]

theorem Entry.mem_names_iff {name : String} (e : Entry) : name ∈ e.names ↔ e.Calls name := by
  simp [Entry.names, Expression.names, Entry.Calls, Expression.Calls, Node.mem_names_iff]

end Phrasebook
