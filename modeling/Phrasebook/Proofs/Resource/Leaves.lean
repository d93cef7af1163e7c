import Phrasebook.Proofs.Resource.Named
import Phrasebook.Store.Load
/-!
# Leaves — the texts of a resource file and what they compile to
-/
namespace Phrasebook.Resource

def Leaf.texts : Leaf → List String
  | .text s     => [s]
  | .list items => items

/-- Texts that are all templates, and at least one. -/
def Leaf.IsCompilable (leaf : Leaf) : Prop :=
  leaf ≠ .list [] ∧ ∀ s ∈ leaf.texts, ∃ e, Expression.parse s = .ok e

/-- The entry is what the leaf compiles to. -/
inductive Leaf.Compiles : Leaf → Entry → Prop
  | single {s : String} {e : Expression} (h : Expression.parse s = .ok e) :
    Compiles (.text s) (.single e)
  | variants {items : List String} {es : List Expression} (hne : items ≠ [])
    (h : List.Forall₂ (fun s e => Expression.parse s = .ok e) items es) :
    Compiles (.list items) (.variants es)

/-- The content of a file can be read and parsed and has exactly one top-level `locale` entry, a
block; these are the leaves of that block. -/
def HasLeaves (content : Except IoFault ByteArray) (leaves : List (String × Leaf)) : Prop :=
  ∃ bytes tree name entries, content = .ok bytes ∧ Tree.ofBytes bytes = .ok tree ∧
    tree.entries.filter isLocale = [(name, .block entries)] ∧
    leaves = (itemsBelow rootKey entries).filterMap message?

def IsLoadable (content : Except IoFault ByteArray) : Prop :=
  ∃ leaves, HasLeaves content leaves ∧ ∀ leaf ∈ leaves, leaf.2.IsCompilable

theorem Leaf.isCompilable_iff {leaf : Leaf} : leaf.IsCompilable ↔ ∃ entry, leaf.Compiles entry := by
  unfold IsCompilable
  rw [← exists_forall₂]
  cases leaf with
  | text s =>
    constructor
    · rintro ⟨-, es, hes⟩
      obtain ⟨e, -, he, -⟩ := List.forall₂_cons_left_iff.1 hes
      exact ⟨_, .single he⟩
    · rintro ⟨_, ⟨he⟩⟩
      exact ⟨nofun, _, .cons he .nil⟩
  | list items =>
    constructor
    · rintro ⟨hne, es, hes⟩
      exact ⟨_, .variants (fun h => hne (congrArg _ h)) hes⟩
    · rintro ⟨_, h⟩
      cases h with
      | variants hne hes => exact ⟨fun h => hne (Leaf.list.inj h), _, hes⟩

theorem itemsOf_eq_ok {tree : Except ParseError Tree}
    {items : List (String × Option Leaf)} : itemsOf tree = .ok items ↔
      ∃ t name entries, tree = .ok t ∧ t.entries.filter isLocale = [(name, .block entries)] ∧
        items = itemsBelow rootKey entries := by
  cases tree with
  | error e => exact ⟨fun h => (nomatch h), fun ⟨_, _, _, h, _⟩ => (nomatch h)⟩
  | ok t =>
    have hitems : itemsOf (.ok t) = .ok items ↔
        ∃ entries, t.localeRoot = .ok entries ∧ itemsBelow rootKey entries = items :=
      except_map_eq_ok
    simp only [hitems, Tree.localeRoot_eq_ok]
    constructor
    · rintro ⟨entries, ⟨name, h⟩, rfl⟩
      exact ⟨t, name, entries, rfl, h, rfl⟩
    · rintro ⟨_, name, entries, ⟨⟩, h, rfl⟩
      exact ⟨entries, ⟨name, h⟩, rfl⟩

theorem hasLeaves_iff {content : Except IoFault ByteArray} {leaves : List (String × Leaf)} :
    HasLeaves content leaves ↔ ∃ bytes items, content = .ok bytes ∧
      itemsOf (Tree.ofBytes bytes) = .ok items ∧ leaves = items.filterMap message? := by
  simp only [itemsOf_eq_ok]
  constructor
  · rintro ⟨bytes, tree, name, entries, hcontent, htree, hroot, rfl⟩
    exact ⟨bytes, _, hcontent, ⟨tree, name, entries, htree, hroot, rfl⟩, rfl⟩
  · rintro ⟨bytes, _, hcontent, ⟨tree, name, entries, htree, hroot, rfl⟩, rfl⟩
    exact ⟨bytes, tree, name, entries, hcontent, htree, hroot, rfl⟩

end Phrasebook.Resource
