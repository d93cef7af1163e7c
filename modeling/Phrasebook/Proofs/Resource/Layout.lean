import Phrasebook.Proofs.Resource.Block
/-!
# Layouts — one tree, many texts

A tree may be written with any blanks and comments between its tokens, with or without the commas
and equals signs that are optional, and with more than one spelling of its keys and strings.
`Tree.Layout` says which texts write a tree, and every one of them is parsed to that tree.

Trees are plain here: no numbers, no dots in keys, and no span openers in keys and strings, which
a string may hold only as parts of spans or with a template escape.
-/
namespace Phrasebook.Resource

open Phrasebook.Parser

/-! ## Plain trees -/

def hasOpener : List Char → Bool
  | []             => false
  | '$' :: '{' :: _ => true
  | _ :: cs        => hasOpener cs

def isPlainText (s : String) : Bool := !hasOpener s.toList

def isPlainKey (s : String) : Bool := isPlainText s && !s.toList.isEmpty && !s.toList.contains '.'

mutual

def Value.isPlain : Value → Bool
  | .text s        => isPlainText s
  | .list items    => items.all isPlainText
  | .block entries => arePlain entries
  | .bool _        => true
  | .number _      => false

def arePlain : List (String × Value) → Bool
  | []                       => true
  | (name, value) :: entries => isPlainKey name && value.isPlain && arePlain entries

end

def Tree.isPlain (t : Tree) : Bool := arePlain t.entries

def Value.isBool : Value → Bool
  | .bool _ => true
  | _       => false

/-! ## The texts of a tree -/

/-- The characters with an escape, and the letters that stand for them. -/
def escapes : List (Char × Char) :=
  [('"', '"'), ('\\', '\\'), ('\n', 'n'), ('\t', 't'), ('\r', 'r'), ('$', '$')]

/-- Characters and a way to write them between quotes.  Those that cannot stand for themselves are
escaped; tabs, carriage returns and dollar signs may be. -/
inductive Written : List Char → List Char → Prop
  | nil : Written [] []
  | raw {c : Char} {s cs : List Char} : c ≠ '"' → c ≠ '\\' → c ≠ '\n' → Written s cs →
      Written (c :: s) (c :: cs)
  | escaped {c e : Char} {s cs : List Char} : (c, e) ∈ escapes → Written s cs →
      Written (c :: s) ('\\' :: e :: cs)

def StringText (s : String) (cs : List Char) : Prop :=
  ∃ body, Written s.toList body ∧ cs = '"' :: body ++ ['"']

/-- A letter or an underscore, then letters, digits, underscores and hyphens. -/
def isIdentifier : List Char → Bool
  | []      => false
  | c :: cs => (c.isAlpha || c == '_') && cs.all fun d => d.isAlphanum || d == '_' || d == '-'

/-- A key that is an identifier needs no quotes. -/
inductive KeyText : String → List Char → Prop
  | bare {name : String} : isIdentifier name.toList = true → KeyText name name.toList
  | quoted {name : String} {cs : List Char} : StringText name cs → KeyText name cs

/-- The items behind another one, each with its comma, and perhaps a last comma. -/
inductive MoreItems : List String → List Char → Prop
  | nil : MoreItems [] []
  | comma {g : List Char} : Gap g → MoreItems [] (',' :: g)
  | cons {s : String} {items : List String} {g cs g' more : List Char} : Gap g →
      StringText s cs → Gap g' → MoreItems items more →
      MoreItems (s :: items) (',' :: g ++ cs ++ g' ++ more)

/-- What stands behind an entry: a gap, and perhaps a comma with another one. -/
inductive SeparatorText : List Char → Prop
  | gap {g : List Char} : Gap g → SeparatorText g
  | comma {g g' : List Char} : Gap g → Gap g' → SeparatorText (g ++ ',' :: g')

/-- Does a bare key stand first? -/
def startsBare : List Char → Bool
  | []     => false
  | c :: _ => c.isAlpha || c == '_'

mutual

inductive ValueText : Value → List Char → Prop
  | text {s : String} {cs : List Char} : StringText s cs → ValueText (.text s) cs
  | emptyList {g : List Char} : Gap g → ValueText (.list []) ('[' :: g ++ [']'])
  | list {s : String} {items : List String} {g cs g' more : List Char} : Gap g →
      StringText s cs → Gap g' → MoreItems items more →
      ValueText (.list (s :: items)) ('[' :: g ++ cs ++ g' ++ more ++ [']'])
  | bool (b : Bool) : ValueText (.bool b) (Template.boolText b)
  | block {entries : List (String × Value)} {cs : List Char} : BlockText entries cs →
      ValueText (.block entries) cs

inductive BlockText : List (String × Value) → List Char → Prop
  | braces {entries : List (String × Value)} {g cs : List Char} : Gap g → EntriesText entries cs →
      BlockText entries ('{' :: g ++ cs ++ ['}'])

/-- Entries, each with what stands behind it.  A truth value is kept apart from a bare key; in front
of a block the equals sign may be missing. -/
inductive EntriesText : List (String × Value) → List Char → Prop
  | nil : EntriesText [] []
  | assigned {name : String} {v : Value} {entries : List (String × Value)}
      {k g g' cs sep more : List Char} : KeyText name k → Gap g → Gap g' → ValueText v cs →
      SeparatorText sep → EntriesText entries more →
      (v.isBool = true → sep = [] → startsBare more = false) →
      EntriesText ((name, v) :: entries) (k ++ g ++ '=' :: g' ++ cs ++ sep ++ more)
  | nested {name : String} {inner entries : List (String × Value)}
      {k g cs sep more : List Char} : KeyText name k → Gap g → BlockText inner cs →
      SeparatorText sep → EntriesText entries more →
      EntriesText ((name, .block inner) :: entries) (k ++ g ++ cs ++ sep ++ more)

end

/-- What may stand at the end of a file: nothing, or a comment that no line feed ends. -/
def LastLine (cs : List Char) : Prop :=
  cs = [] ∨ ∃ o body, OpensLine o ∧ '\n' ∉ body ∧ cs = o ++ body

/-- The texts that write a tree. -/
def Tree.Layout (t : Tree) (text : String) : Prop :=
  ∃ g cs last, Gap g ∧ EntriesText t.entries cs ∧ LastLine last ∧ text.toList = g ++ cs ++ last

/-! ## Strings and keys -/

theorem escapeOpeners_of_plain {cs : List Char} (h : hasOpener cs = false) :
    Template.escapeOpeners cs = cs := by
  fun_induction hasOpener cs with
  | case1 => rfl
  | case2 => cases h
  | case3 c cs hne ih =>
    rw [Template.escapeOpeners_cons, ih h]
    rintro ⟨t, ht⟩
    injection ht with hc hcs
    exact hne t hc.symm hcs.symm

theorem hasOpener_tail {c : Char} {cs : List Char} (h : hasOpener (c :: cs) = false) :
    hasOpener cs = false ∧ (c = '$' → ¬ ['{'] <+: cs) := by
  by_cases hopen : c = '$' ∧ ['{'] <+: cs
  · obtain ⟨rfl, t, rfl⟩ := hopen
    cases h
  · refine ⟨?_, fun hc hb => hopen ⟨hc, hb⟩⟩
    rw [hasOpener] at h
    · exact h
    · rintro t rfl rfl
      exact hopen ⟨rfl, t, rfl⟩

theorem unescape_of_mem {c e : Char} (h : (c, e) ∈ escapes) : Text.unescape e = some c := by
  simp only [escapes, List.mem_cons, Prod.mk.injEq, List.not_mem_nil, or_false] at h
  rcases h with ⟨rfl, rfl⟩ | ⟨rfl, rfl⟩ | ⟨rfl, rfl⟩ | ⟨rfl, rfl⟩ | ⟨rfl, rfl⟩ | ⟨rfl, rfl⟩ <;> rfl

theorem Written.spelled {s cs : List Char} (h : Written s cs) (hs : hasOpener s = false) :
    Spelled s cs := by
  induction h with
  | nil => exact .nil
  | raw h1 h2 h3 _ ih => exact .plain h1 h2 h3 (hasOpener_tail hs).2 (ih (hasOpener_tail hs).1)
  | escaped he _ ih => exact .escape (unescape_of_mem he) (ih (hasOpener_tail hs).1)

theorem stringText_read {s : String} {cs : List Char} (h : StringText s cs)
    (hs : isPlainText s = true) (rest : List Char) : quoted (cs ++ rest) = .ok s.toList rest := by
  obtain ⟨body, hbody, rfl⟩ := h
  rw [isPlainText, Bool.not_eq_true'] at hs
  have hquoted := quoted_spelled (hbody.spelled hs) rest
  rw [escapeOpeners_of_plain hs] at hquoted
  rwa [List.append_assoc, List.singleton_append]

theorem StringText.head {s : String} {cs : List Char} (h : StringText s cs) :
    ∃ t, cs = '"' :: t := by
  obtain ⟨body, _, rfl⟩ := h
  exact ⟨_, rfl⟩

theorem StringText.stops {s : String} {cs : List Char} (h : StringText s cs) (rest : List Char) :
    Stops isGapStart (cs ++ rest) := by
  obtain ⟨t, rfl⟩ := h.head
  exact stops_cons.2 (by decide)

theorem isIdentifierRest_eq_false {c : Char} (h : isGapStart c = true) :
    isIdentifierRest c = false := by
  rw [isGapStart, Bool.or_eq_true, Bool.or_eq_true, beq_iff_eq, beq_iff_eq] at h
  rcases h with (h | rfl) | rfl
  · have hne : ∀ d, Text.isBlank d = false → c ≠ d := fun d hd => Text.ne_of_class h hd
    have halnum : c.isAlphanum = false :=
      Text.eq_false_of_apart (fun _ => Text.isBlank_eq_false_of_isAlphanum) c h
    simp [isIdentifierRest, halnum, hne '_' (by decide), hne '-' (by decide)]
  · decide
  · decide

theorem keyText_read {name : String} {k : List Char} (h : KeyText name k)
    (hname : isPlainKey name = true) {s : List Char} (hs : Stops isIdentifierRest s) :
    key (k ++ s) = .ok name.toList s := by
  rw [isPlainKey, Bool.and_eq_true, Bool.and_eq_true] at hname
  obtain ⟨⟨hplain, hne⟩, hdot⟩ := hname
  cases h with
  | bare h =>
    refine key_of_identifier ?_
    cases hk : name.toList with
    | nil => rw [hk] at h; cases h
    | cons c cs =>
      rw [hk, isIdentifier, Bool.and_eq_true, List.all_eq_true] at h
      exact identifier_append h.1 h.2 hs
  | quoted h =>
    have hquoted := stringText_read h hplain s
    obtain ⟨t, rfl⟩ := h.head
    exact key_of_quoted hquoted (by rw [isKey, hne, hdot]; rfl)

theorem KeyText.head {name : String} {k : List Char} (h : KeyText name k) :
    ∃ c t, k = c :: t ∧ (c = '"' ∨ isIdentifierStart c = true) := by
  cases h with
  | bare h =>
    cases hk : name.toList with
    | nil => rw [hk] at h; cases h
    | cons c cs =>
      rw [hk, isIdentifier, Bool.and_eq_true] at h
      exact ⟨c, cs, rfl, .inr h.1⟩
  | quoted h =>
    obtain ⟨t, rfl⟩ := h.head
    exact ⟨'"', t, rfl, .inl rfl⟩

/-! ## Lists -/

theorem moreItems_stops {items : List String} {more : List Char} (h : MoreItems items more)
    (rest : List Char) : Stops isGapStart (more ++ ']' :: rest) := by
  cases h with
  | nil | comma | cons => exact stops_cons.2 (by decide)

/-- What stands behind an item of a list, up to the closing bracket. -/
theorem moreItems_read {items : List String} {more : List Char} (h : MoreItems items more)
    (hitems : items.all isPlainText = true) (rest : List Char) :
    ∃ mid o, many (do let _ ← comma; listItem) (more ++ ']' :: rest) = .ok items mid ∧
      optional comma mid = .ok o (']' :: rest) := by
  induction h with
  | nil =>
    have hcomma : Refuses comma (']' :: rest) := refuses_comma (by simp)
    exact ⟨']' :: rest, none, many_of_refuses (hcomma.bind _), optional_of_refuses hcomma⟩
  | @comma g hg =>
    have hcomma : comma (',' :: (g ++ ']' :: rest)) = .ok () (']' :: rest) :=
      comma_of_gap (gap_append_token hg (stops_cons.2 (by decide)))
    exact ⟨_, some (), many_of_refuses (refuses_bind_of_ok hcomma (refuses_listItem (by simp))),
      optional_eq_ok.2 (.inl ⟨(), rfl, hcomma⟩)⟩
  | @cons s items g cs g' more hg hs hg' hmore ih =>
    rw [List.all_cons, Bool.and_eq_true] at hitems
    obtain ⟨mid, o, hmany, hlast⟩ := ih hitems.2
    have hcomma : comma (',' :: (g ++ (cs ++ (g' ++ (more ++ ']' :: rest))))) = .ok () _ :=
      comma_of_gap (gap_append_token hg (hs.stops _))
    have hitem := listItem_of_quoted (stringText_read hs hitems.1 _)
      (gap_append_token hg' (moreItems_stops hmore rest))
    rw [String.ofList_toList] at hitem
    refine ⟨mid, o, many_eq_ok_cons.2 ⟨more ++ ']' :: rest, ?_, hmany⟩, hlast⟩
    simp only [List.append_assoc, List.cons_append]
    rw [bind_of_ok hcomma, hitem]

/-! ## Values, blocks and entries -/

theorem separatorText_read {sep s mid : List Char} (h : SeparatorText sep)
    (hs : gap s = .ok () mid) (hmid : mid.head? ≠ some ',') :
    separator (sep ++ s) = .ok () mid := by
  cases h with
  | gap hg => exact separator_gap hg hs hmid
  | comma hg hg' => exact separator_comma hg hg' hs

/-- What stands behind a separator is all that can run on into a truth value. -/
theorem separatorText_stops {sep s : List Char} (h : SeparatorText sep)
    (hs : sep = [] → Stops isIdentifierRest s) : Stops isIdentifierRest (sep ++ s) := by
  cases h with
  | gap hg => exact hg.stops (fun _ => isIdentifierRest_eq_false) hs
  | @comma g g' hg _ =>
    rw [List.append_assoc]
    exact hg.stops (fun _ => isIdentifierRest_eq_false) fun _ => stops_cons.2 (by decide)

theorem entriesText_head {entries : List (String × Value)} {cs : List Char}
    (h : EntriesText entries cs) :
    cs = [] ∨ ∃ c t, cs = c :: t ∧ (c = '"' ∨ isIdentifierStart c = true) := by
  cases h with
  | nil => exact .inl rfl
  | assigned hk _ _ _ _ _ _ | nested hk _ _ _ _ =>
    obtain ⟨c, t, rfl, hc⟩ := hk.head
    exact .inr ⟨c, _, rfl, hc⟩

/-- Where entries end: what the gap there leaves is no entry and no comma, and nothing runs on into
a truth value in front of the gap. -/
structure EntriesEnd (rest left : List Char) : Prop where
  gap    : gap rest = .ok () left
  key    : Stops isKeyStart left
  comma  : left.head? ≠ some ','
  closed : Stops isIdentifierRest rest

theorem entriesEnd_brace (rest : List Char) : EntriesEnd ('}' :: rest) ('}' :: rest) where
  gap    := gap_of_stops (stops_cons.2 (by decide))
  key    := stops_cons.2 (by decide)
  comma  := by simp
  closed := stops_cons.2 (by decide)

theorem refuses_entry {s : List Char} (h : Stops isKeyStart s) : Refuses (entry block) s :=
  (refuses_key h).bind _

theorem isGapStart_eq_false {c : Char} (h : c = '"' ∨ isIdentifierStart c = true) :
    isGapStart c = false := by
  rcases h with rfl | h
  · decide
  · have hne : ∀ d, isIdentifierStart d = false → c ≠ d := fun d hd => Text.ne_of_class h hd
    have hblank : Text.isBlank c = false := by
      rw [isIdentifierStart, Bool.or_eq_true, beq_iff_eq] at h
      rcases h with h | rfl
      · exact Text.isBlank_eq_false_of_isAlphanum (Text.isAlphanum_of_isAlpha h)
      · decide
    simp [isGapStart, hblank, hne '#' (by decide), hne '/' (by decide)]

theorem valueText_stops {v : Value} {cs : List Char} (h : ValueText v cs) (s : List Char) :
    Stops isGapStart (cs ++ s) := by
  cases h with
  | text hs => exact hs.stops s
  | emptyList | list => exact stops_cons.2 (by decide)
  | bool b => cases b <;> exact stops_cons.2 (by decide)
  | block hb =>
    cases hb
    exact stops_cons.2 (by decide)

/-- What can run on into a truth value is a bare key. -/
theorem entriesText_stops {entries : List (String × Value)} {more rest left : List Char}
    (h : EntriesText entries more) (hend : EntriesEnd rest left)
    (hbare : startsBare more = false) : Stops isIdentifierRest (more ++ rest) := by
  rcases entriesText_head h with rfl | ⟨c, t, rfl, rfl | hc⟩
  · exact hend.closed
  · exact stops_cons.2 (by decide)
  · rw [startsBare, ← isIdentifierStart, hc] at hbare
    cases hbare

/-- An entry that is read in front of others. -/
theorem entries_cons {name : String} {k s mid left : List Char} {v : Value}
    {entries : List (String × Value)} (hk : KeyText name k)
    (hentry : entry block (k ++ s) = .ok (name, v) mid)
    (hentries : many (entry block) mid = .ok entries left) :
    ∃ first, gap (k ++ s) = .ok () first ∧ first.head? ≠ some ',' ∧
      many (entry block) first = .ok ((name, v) :: entries) left := by
  refine ⟨k ++ s, ?_, ?_, many_eq_ok_cons.2 ⟨mid, hentry, hentries⟩⟩
  · obtain ⟨c, t, rfl, hc⟩ := hk.head
    exact gap_of_stops (stops_cons.2 (isGapStart_eq_false hc))
  · obtain ⟨c, t, rfl, hc⟩ := hk.head
    rintro ⟨⟩
    rcases hc with hc | hc <;> cases hc

mutual

theorem valueText_read : ∀ {v : Value} {cs : List Char}, ValueText v cs → v.isPlain = true →
    ∀ {rest : List Char}, (v.isBool = true → Stops isIdentifierRest rest) →
      value block (cs ++ rest) = .ok v rest
  | _, _, @ValueText.text s cs hs, hv, rest, _ => by
    rw [Value.isPlain] at hv
    have h : value block (cs ++ rest) = .ok (.text (String.ofList s.toList)) rest :=
      value_of_quoted (stringText_read hs hv rest)
    rwa [String.ofList_toList] at h
  | _, _, @ValueText.emptyList g hg, _, rest, _ => by
    have hlist : list ('[' :: (g ++ ']' :: rest)) = .ok [] rest :=
      list_of_items (gap_append_token hg (stops_cons.2 (by decide)))
        (sepBy_of_refuses (refuses_listItem (by simp)))
        (optional_of_refuses (refuses_comma (by simp)))
    rw [List.append_assoc]
    exact value_of_list hlist
  | _, _, @ValueText.list s items g cs g' more hg hs hg' hmore, hv, rest, _ => by
    rw [Value.isPlain, List.all_cons, Bool.and_eq_true] at hv
    obtain ⟨mid, o, hmany, hlast⟩ := moreItems_read hmore hv.2 rest
    have hitem := listItem_of_quoted (stringText_read hs hv.1 _)
      (gap_append_token hg' (moreItems_stops hmore rest))
    rw [String.ofList_toList] at hitem
    have hlist := list_of_items (gap_append_token hg (hs.stops _))
      (sepBy_eq_ok.2 (.inr ⟨_, _, _, rfl, hitem, hmany⟩)) hlast
    have h : value block ('[' :: (g ++ (cs ++ (g' ++ (more ++ ']' :: rest))))) = .ok _ rest :=
      value_of_list hlist
    simpa using h
  | _, _, .bool b, _, rest, hrest => value_bool b (hrest rfl)
  | _, _, .block hb, hv, rest, _ => by
    rw [Value.isPlain] at hv
    have h := blockText_read hb hv rest
    cases hb
    exact value_of_block h

theorem blockText_read : ∀ {entries : List (String × Value)} {cs : List Char},
    BlockText entries cs → arePlain entries = true → ∀ rest, block (cs ++ rest) = .ok entries rest
  | _, _, @BlockText.braces entries g cs hg hentries, hplain, rest => by
    obtain ⟨first, hgap, _, hmany⟩ := entriesText_read hentries hplain (entriesEnd_brace rest)
    have hs : '{' :: g ++ cs ++ ['}'] ++ rest = '{' :: (g ++ (cs ++ '}' :: rest)) := by simp
    rw [hs]
    exact block_of_entries ((gap_append hg _).trans hgap) hmany

theorem entriesText_read : ∀ {entries : List (String × Value)} {cs : List Char},
    EntriesText entries cs → arePlain entries = true →
    ∀ {rest left : List Char}, EntriesEnd rest left →
      ∃ first, gap (cs ++ rest) = .ok () first ∧ first.head? ≠ some ',' ∧
        many (entry block) first = .ok entries left
  | _, _, .nil, _, rest, left, hend =>
    ⟨left, hend.gap, hend.comma, many_of_refuses (refuses_entry hend.key)⟩
  | _, _, @EntriesText.assigned name v entries k g g' cs sep more hk hg hg' hv hsep hmore hbare,
      hplain, rest, left, hend => by
    rw [arePlain, Bool.and_eq_true, Bool.and_eq_true] at hplain
    obtain ⟨mid, hgap, hcomma, hmany⟩ := entriesText_read hmore hplain.2 hend
    have hbool : v.isBool = true → Stops isIdentifierRest (sep ++ (more ++ rest)) := fun hb =>
      separatorText_stops hsep fun hnil => entriesText_stops hmore hend (hbare hb hnil)
    have hkey : key (k ++ (g ++ '=' :: (g' ++ (cs ++ (sep ++ (more ++ rest)))))) = .ok _ _ :=
      keyText_read hk hplain.1.1 (hg.stops (fun _ => isIdentifierRest_eq_false) fun _ =>
        stops_cons.2 (by decide))
    have hentry := entry_of_value hkey (gap_append_token hg (stops_cons.2 (by decide)))
      (gap_append_token hg' (valueText_stops hv _)) (valueText_read hv hplain.1.2 hbool)
      (separatorText_read hsep hgap hcomma)
    rw [String.ofList_toList] at hentry
    simpa using entries_cons hk hentry hmany
  | _, _, @EntriesText.nested name inner entries k g cs sep more hk hg hb hsep hmore,
      hplain, rest, left, hend => by
    rw [arePlain, Bool.and_eq_true, Bool.and_eq_true, Value.isPlain] at hplain
    obtain ⟨mid, hgap, hcomma, hmany⟩ := entriesText_read hmore hplain.2 hend
    have hblock := blockText_read hb hplain.1.2 (sep ++ (more ++ rest))
    obtain ⟨t, ht⟩ : ∃ t, cs = '{' :: t := by
      cases hb
      exact ⟨_, rfl⟩
    subst ht
    have hkey : key (k ++ (g ++ '{' :: (t ++ (sep ++ (more ++ rest))))) = .ok _ _ :=
      keyText_read hk hplain.1.1 (hg.stops (fun _ => isIdentifierRest_eq_false) fun _ =>
        stops_cons.2 (by decide))
    have hentry := entry_of_block hkey (gap_append_token hg (stops_cons.2 (by decide))) hblock
      (separatorText_read hsep hgap hcomma)
    rw [String.ofList_toList] at hentry
    simpa using entries_cons hk hentry hmany

end

/-! ## Files -/

theorem entriesEnd_lastLine {last : List Char} (h : LastLine last) : EntriesEnd last [] := by
  obtain rfl | ⟨o, body, ho, hbody, rfl⟩ := h
  · exact ⟨gap_of_stops (stops_nil _), stops_nil _, by simp, stops_nil _⟩
  · refine ⟨gap_lastLine ho hbody, stops_nil _, by simp, ?_⟩
    rcases ho with rfl | rfl
    · exact stops_cons.2 (by decide)
    · exact stops_cons.2 (by decide)

/-- A text that writes a tree does not begin with a byte order mark. -/
theorem head_layout {g cs last : List Char} {entries : List (String × Value)} (hg : Gap g)
    (hcs : EntriesText entries cs) (hlast : LastLine last) :
    (g ++ cs ++ last).head? ≠ some '\uFEFF' := by
  have hstops : Stops (· == '\uFEFF') (g ++ (cs ++ last)) := by
    refine hg.stops (fun c hc => ?_) fun _ => ?_
    · exact beq_eq_false_iff_ne.2 (Text.ne_of_class hc (by decide))
    · rcases entriesText_head hcs with rfl | ⟨c, t, rfl, hc⟩
      · obtain rfl | ⟨o, body, rfl | rfl, _, rfl⟩ := hlast
        · exact stops_nil _
        · exact stops_cons.2 (by decide)
        · exact stops_cons.2 (by decide)
      · refine stops_cons.2 (beq_eq_false_iff_ne.2 ?_)
        rcases hc with rfl | hc
        · decide
        · exact Text.ne_of_class hc (by decide)
  intro h
  rw [List.append_assoc] at h
  cases hstops _ h

theorem parse_of_layout {t : Tree} {text : String} (ht : t.isPlain = true)
    (h : t.Layout text) : Tree.parse text = .ok t := by
  obtain ⟨g, cs, last, hg, hcs, hlast, htext⟩ := h
  obtain ⟨first, hgap, _, hmany⟩ := entriesText_read hcs ht (entriesEnd_lastLine hlast)
  refine parse_of_file ?_ ?_
  · rw [htext]
    exact head_layout hg hcs hlast
  · rw [htext, List.append_assoc]
    exact file_of_entries ((gap_append hg _).trans hgap) hmany

/-! ## Every plain tree has a layout -/

theorem written_escape (cs : List Char) : Written cs (escape cs) := by
  fun_induction escape cs with
  | case1 => exact .nil
  | case2 cs ih | case3 cs ih | case4 cs ih | case5 cs ih => exact .escaped (by decide) ih
  | case6 c cs h1 h2 h3 _ ih => exact .raw h1 h2 h3 ih

theorem exists_stringText (s : String) : ∃ cs, StringText s cs :=
  ⟨_, _, written_escape s.toList, rfl⟩

theorem exists_moreItems : ∀ items : List String, ∃ more, MoreItems items more
  | [] => ⟨[], .nil⟩
  | s :: items => by
    obtain ⟨cs, hcs⟩ := exists_stringText s
    obtain ⟨more, hmore⟩ := exists_moreItems items
    exact ⟨_, .cons .nil hcs .nil hmore⟩

mutual

theorem exists_valueText : ∀ v : Value, v.isPlain = true → ∃ cs, ValueText v cs
  | .text s, _ => by
    obtain ⟨cs, hcs⟩ := exists_stringText s
    exact ⟨cs, .text hcs⟩
  | .list [], _ => ⟨_, .emptyList .nil⟩
  | .list (s :: items), _ => by
    obtain ⟨cs, hcs⟩ := exists_stringText s
    obtain ⟨more, hmore⟩ := exists_moreItems items
    exact ⟨_, .list .nil hcs .nil hmore⟩
  | .bool b, _ => ⟨_, .bool b⟩
  | .block entries, h => by
    rw [Value.isPlain] at h
    obtain ⟨cs, hcs⟩ := exists_entriesText entries h
    exact ⟨_, .block (.braces .nil hcs)⟩
  | .number x, h => by
    rw [Value.isPlain] at h
    cases h

theorem exists_entriesText : ∀ entries : List (String × Value), arePlain entries = true →
    ∃ cs, EntriesText entries cs
  | [], _ => ⟨[], .nil⟩
  | (name, v) :: entries, h => by
    rw [arePlain, Bool.and_eq_true, Bool.and_eq_true] at h
    obtain ⟨k, hk⟩ := exists_stringText name
    obtain ⟨cs, hcs⟩ := exists_valueText v h.1.2
    obtain ⟨more, hmore⟩ := exists_entriesText entries h.2
    exact ⟨_, .assigned (.quoted hk) .nil .nil hcs (.comma .nil .nil) hmore fun _ h => by cases h⟩

end

/-- **Every plain tree can be written, and however it is written it is parsed to itself.** -/
theorem Tree.parse_every_layout {t : Tree} (ht : t.isPlain = true) :
    (∃ text, t.Layout text) ∧ ∀ text, t.Layout text → Tree.parse text = .ok t := by
  refine ⟨?_, fun text h => parse_of_layout ht h⟩
  obtain ⟨cs, hcs⟩ := exists_entriesText t.entries ht
  exact ⟨String.ofList cs, [], cs, [], .nil, hcs, .inl rfl, by simp⟩

theorem Tree.parse_every_layout_dense :
    Tree.parse "a\x7bb=true \"c\"=[\"\\$\",]\x7d#" =
      .ok ⟨[("a", .block [("b", .bool true), ("c", .list ["$"])])]⟩ := by
  have hitem : StringText "$" ['"', '\\', '$', '"'] := ⟨_, written_escape ['$'], rfl⟩
  have hkey : StringText "c" ['"', 'c', '"'] := ⟨_, written_escape ['c'], rfl⟩
  have hlist := EntriesText.assigned (.quoted hkey) .nil .nil (.list .nil hitem .nil (.comma .nil))
    (.gap .nil) .nil fun h => by cases h
  have hbool := EntriesText.assigned (.bare rfl : KeyText "b" _) .nil .nil (.bool true)
    (.gap (.blank (c := ' ') (by decide) .nil)) hlist fun _ h => by cases h
  have hblock := EntriesText.nested (.bare rfl : KeyText "a" _) .nil (.braces .nil hbool)
    (.gap .nil) .nil
  have hlast : LastLine ['#'] := .inr ⟨['#'], [], .inl rfl, by decide, rfl⟩
  exact (Tree.parse_every_layout (by decide)).2 _ ⟨[], _, ['#'], .nil, hblock, hlast, rfl⟩

end Phrasebook.Resource
