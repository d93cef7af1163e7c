import Phrasebook.Proofs.Except
import Phrasebook.Proofs.Parser.Yield
import Phrasebook.Proofs.Resource.Block
/-!
# Names — what entries are called, and where their messages are

Every entry of a file that parses has a name that is not empty and has no dot, at whatever depth it
stands.  So the keys of the messages are the names on the way to them, and a dot in a key is always
one between two names.
-/
namespace Phrasebook.Resource

open Phrasebook.Parser

mutual

/-- Are all names in a value names of entries? -/
def Value.isNamed : Value → Bool
  | .block entries => areNamed entries
  | _              => true

def areNamed : List (String × Value) → Bool
  | []                       => true
  | (name, value) :: entries => isKey name.toList && value.isNamed && areNamed entries

end

def Tree.isNamed (t : Tree) : Bool := areNamed t.entries

theorem areNamed_cons {name : String} {value : Value} {entries : List (String × Value)} :
    areNamed ((name, value) :: entries) = true ↔
      (isKey name.toList = true ∧ value.isNamed = true) ∧ areNamed entries = true := by
  rw [areNamed, Bool.and_eq_true, Bool.and_eq_true]

theorem areNamed_iff {entries : List (String × Value)} : areNamed entries = true ↔
    ∀ entry ∈ entries, isKey entry.1.toList = true ∧ entry.2.isNamed = true := by
  induction entries with
  | nil => exact ⟨fun _ => List.forall_mem_nil _, fun _ => rfl⟩
  | cons entry entries ih => rw [areNamed_cons, ih, List.forall_mem_cons]

theorem isKey_iff {cs : List Char} : isKey cs = true ↔ cs ≠ [] ∧ '.' ∉ cs := by
  unfold isKey
  cases cs with
  | nil => decide
  | cons c cs => simp

/-! ## The names that parse -/

theorem yields_identifier : Yields identifier fun cs => isKey cs = true := by
  intro s cs rest h
  obtain ⟨c, mid, hc, h⟩ := bind_eq_ok.1 h
  obtain ⟨ds, rest', hds, h⟩ := bind_eq_ok.1 h
  obtain ⟨rfl, -⟩ := pure_eq_ok.1 h
  have hstart : isIdentifierStart c = true := (satisfy_eq_ok.1 hc).1
  have hrest : ∀ d ∈ ds, isIdentifierRest d = true := (takeWhile_eq_ok.1 hds).2.1
  -- a dot is none of the characters of an identifier
  refine isKey_iff.2 ⟨List.cons_ne_nil c ds, fun hdot => ?_⟩
  obtain rfl | hdot := List.mem_cons.1 hdot
  · exact absurd hstart (by decide)
  · exact absurd (hrest '.' hdot) (by decide)

theorem yields_key : Yields key fun cs => isKey cs = true := by
  have hquoted : Yields quotedKey fun cs => isKey cs = true :=
    fun _ _ _ h => (quotedKey_eq_ok.1 h).2
  exact yields_identifier.orElse (.behind _ fun _ => (hquoted.expecting _).commit)

section

variable {block : Parser (List (String × Value))}

theorem yields_blockValue (hblock : Yields block fun entries => areNamed entries = true) :
    Yields (do let entries ← block; pure (.block entries)) fun v : Value => v.isNamed = true := by
  refine hblock.bind fun entries hentries => yields_pure ?_
  rw [Value.isNamed, hentries]

theorem yields_value (hblock : Yields block fun entries => areNamed entries = true) :
    Yields (value block) fun v => v.isNamed = true := by
  have hplain : ∀ {α : Type} (p : Parser α) (f : α → Value), (∀ a, (f a).isNamed = true) →
      Yields (do let a ← p; pure (f a)) fun v => v.isNamed = true :=
    fun p f hf => .behind p fun a => yields_pure (hf a)
  exact .expecting (.orElse (hplain quoted _ fun _ => rfl) <|
    .orElse (hplain list _ fun _ => rfl) <| .orElse (yields_blockValue hblock) <|
    .orElse (hplain number _ fun _ => rfl) (hplain boolean _ fun _ => rfl)) _

theorem yields_entry (hblock : Yields block fun entries => areNamed entries = true) :
    Yields (entry block) fun e => isKey e.1.toList = true ∧ e.2.isNamed = true := by
  have hvalue : Yields ((do let _ ← char '='; gap; value block) <|>
      (do let entries ← block; pure (.block entries))) fun v : Value => v.isNamed = true :=
    .orElse (.behind _ fun _ => .behind _ fun _ => yields_value hblock) (yields_blockValue hblock)
  refine yields_key.bind fun name hname => .behind _ fun _ => ?_
  refine (hvalue.commit.expecting _).bind fun v hv => .behind _ fun _ => .behind _ fun _ =>
    yields_pure ⟨?_, hv⟩
  rw [String.toList_ofList]
  exact hname

theorem yields_entries (hblock : Yields block fun entries => areNamed entries = true) :
    Yields (many (entry block)) fun entries => areNamed entries = true :=
  fun s entries rest h => areNamed_iff.2 ((yields_entry hblock).many s entries rest h)

end

theorem yields_block : Yields block fun entries => areNamed entries = true := by
  refine .fix fun block hblock => .expecting (.behind _ fun _ => .behind _ fun _ => .commit ?_) _
  exact (yields_entries hblock).bind fun _ hentries => .behind _ fun _ => yields_pure hentries

theorem Tree.isNamed_of_parse {text : String} {t : Tree} (h : Tree.parse text = .ok t) :
    t.isNamed = true := by
  have hfile : Yields file fun entries => areNamed entries = true :=
    .behind _ fun _ => yields_entries yields_block
  obtain ⟨entries, hentries, rfl⟩ := except_map_eq_ok.1 h
  exact hfile.runAll hentries

theorem Tree.isNamed_of_ofBytes {bytes : ByteArray} {t : Tree} (h : Tree.ofBytes bytes = .ok t) :
    t.isNamed = true := by
  unfold Tree.ofBytes at h
  split at h
  · exact isNamed_of_parse h
  · cases h

/-! ## The keys of messages -/

/-- The key goes on from the other one with at least one name, each behind a dot. -/
def IsBelow (root key : String) : Prop :=
  ∃ names : List (List Char), names ≠ [] ∧ (∀ name ∈ names, name ≠ [] ∧ '.' ∉ name) ∧
    key.toList = root.toList ++ names.flatMap ('.' :: ·)

theorem toList_below (key name : String) :
    (below key name).toList = key.toList ++ '.' :: name.toList := by
  rw [below, String.toList_append, String.toList_append, List.append_assoc]
  rfl

theorem isBelow_below {name : String} (h : isKey name.toList = true) (key : String) :
    IsBelow key (below key name) := by
  refine ⟨[name.toList], List.cons_ne_nil _ _, List.forall_mem_singleton.2 (isKey_iff.1 h), ?_⟩
  rw [toList_below, List.flatMap_singleton]

theorem IsBelow.of_below {name key root : String} (hname : isKey name.toList = true)
    (h : IsBelow (below root name) key) : IsBelow root key := by
  obtain ⟨names, _, hnames, hkey⟩ := h
  refine ⟨name.toList :: names, List.cons_ne_nil _ _,
    List.forall_mem_cons.2 ⟨isKey_iff.1 hname, hnames⟩, ?_⟩
  rw [hkey, toList_below, List.flatMap_cons, List.append_assoc]

mutual

theorem isBelow_items {root : String} : ∀ {value : Value}, value.isNamed = true →
    ∀ item ∈ value.items root, item.1 = root ∨ IsBelow root item.1
  | .text _, _ | .list _, _ | .number _, _ | .bool _, _ => by
    intro item hitem
    rw [Value.items] at hitem
    rw [List.mem_singleton.1 hitem]
    exact .inl rfl
  | .block entries, h => by
    intro item hitem
    rw [Value.isNamed] at h
    rw [Value.items] at hitem
    exact .inr (isBelow_itemsBelow h item hitem)

theorem isBelow_itemsBelow {root : String} : ∀ {entries : List (String × Value)},
    areNamed entries = true → ∀ item ∈ itemsBelow root entries, IsBelow root item.1
  | [], _ => by
    rw [itemsBelow]
    exact List.forall_mem_nil _
  | (name, value) :: entries, h => by
    intro item hitem
    obtain ⟨⟨hname, hvalue⟩, hentries⟩ := areNamed_cons.1 h
    rw [itemsBelow] at hitem
    obtain hitem | hitem := List.mem_append.1 hitem
    · obtain heq | hbelow := isBelow_items hvalue item hitem
      · rw [heq]
        exact isBelow_below hname root
      · exact hbelow.of_below hname
    · exact isBelow_itemsBelow hentries item hitem

end

theorem Tree.localeRoot_eq_ok {t : Tree} {entries : List (String × Value)} :
    t.localeRoot = .ok entries ↔ ∃ name, t.entries.filter isLocale = [(name, .block entries)] := by
  unfold localeRoot
  constructor
  · intro h
    split at h <;> cases h
    exact ⟨_, ‹_›⟩
  · rintro ⟨name, h⟩
    rw [h]

theorem Tree.areNamed_of_localeRoot {t : Tree} {entries : List (String × Value)}
    (ht : t.isNamed = true) (h : t.localeRoot = .ok entries) : areNamed entries = true := by
  obtain ⟨name, hroot⟩ := localeRoot_eq_ok.1 h
  have hmem : (name, Value.block entries) ∈ t.entries.filter isLocale := by
    rw [hroot]
    exact List.mem_singleton_self _
  have hnamed := (areNamed_iff.1 ht _ (List.mem_filter.1 hmem).1).2
  rwa [Value.isNamed] at hnamed

/-- Every message of a file is below the root of all messages. -/
theorem Tree.isBelow_of_items {t : Tree} {items : List (String × Option Leaf)}
    (ht : t.isNamed = true) (h : t.items = .ok items) :
    ∀ item ∈ items, IsBelow rootKey item.1 := by
  obtain ⟨entries, hroot, rfl⟩ := except_map_eq_ok.1 h
  exact isBelow_itemsBelow (areNamed_of_localeRoot ht hroot)

end Phrasebook.Resource
