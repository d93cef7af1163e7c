import Phrasebook.Proofs.Resource.Gap
import Phrasebook.Proofs.Resource.Strings
/-!
# Keys, values and blocks — what each parser reads, step by step

One lemma for each construct of a resource file says what it makes of its parts, with the gaps in
between.  The constructs that nest are joined by `block_of_entries`.
-/
namespace Phrasebook.Resource

open Phrasebook.Parser

/-! ## Progress -/

instance consumes_identifier : Consumes identifier := by
  unfold identifier
  infer_instance

theorem quotedKey_eq_ok {s rest cs : List Char} :
    quotedKey s = .ok cs rest ↔ quoted s = .ok cs rest ∧ isKey cs = true := by
  unfold quotedKey
  cases quoted s with
  | failed e =>
    constructor
    · intro h; cases h
    · rintro ⟨h, _⟩; cases h
  | ok cs' rest' =>
    show (if isKey cs' = true then Reply.ok cs' rest' else _) = _ ↔ _
    by_cases hk : isKey cs' = true
    · rw [if_pos hk]
      constructor
      · rintro ⟨⟩; exact ⟨rfl, hk⟩
      · rintro ⟨h, _⟩; exact h
    · rw [if_neg hk]
      constructor
      · intro h; cases h
      · rintro ⟨⟨⟩, h⟩; exact absurd h hk

instance consumes_quotedKey : Consumes quotedKey where
  length_lt h := Consumes.length_lt (quotedKey_eq_ok.1 h).1

instance consumes_key : Consumes key := by
  unfold key
  infer_instance

instance shrinks_numeral : Shrinks Numeral.parse := by
  unfold Numeral.parse
  infer_instance

instance shrinks_number : Shrinks number := by
  unfold number
  infer_instance

instance shrinks_boolean : Shrinks boolean := by
  unfold boolean
  infer_instance

instance consumes_comma : Consumes comma := by
  unfold comma
  infer_instance

instance consumes_listItem : Consumes listItem := by
  unfold listItem
  infer_instance

instance consumes_list : Consumes list := by
  unfold list
  infer_instance

section

variable (block : Parser (List (String × Value))) [Shrinks block]

instance shrinks_value : Shrinks (value block) := by
  unfold value
  infer_instance

instance consumes_entry : Consumes (entry block) := by
  unfold entry
  infer_instance

instance consumes_blockStep : Consumes (blockStep block) := by
  unfold blockStep
  infer_instance

end

section

variable {n : Nat} {p q : Parser (List (String × Value))} [Shrinks p]

theorem agreesBelow_value (h : AgreesBelow n p q) : AgreesBelow n (value p) (value q) :=
  .expecting (.orElse (.refl n _) <| .orElse (.refl n _) <|
    .orElse (h.bind fun _ => .refl n _) (.refl n _)) _

theorem agreesBelow_entry (h : AgreesBelow n p q) : AgreesBelow n (entry p) (entry q) := by
  have hvalue : AgreesBelow n
      ((do let _ ← char '='; gap; value p) <|> (do let entries ← p; pure (.block entries)))
      ((do let _ ← char '='; gap; value q) <|> (do let entries ← q; pure (.block entries))) :=
    .orElse ((AgreesBelow.refl n _).bind fun _ => (AgreesBelow.refl n _).bind fun _ =>
      agreesBelow_value h) (h.bind fun _ => .refl n _)
  exact (AgreesBelow.refl n _).bind fun _ => (AgreesBelow.refl n _).bind fun _ =>
    (hvalue.commit.expecting _).bind fun _ => .refl n _

end

/-- The brace of a block is read before its entries. -/
instance guarded_blockStep : Guarded blockStep where
  shrinks _ _ := inferInstance
  below _ _ _ _ h := .expecting (.behind (char '{') fun _ => (AgreesBelow.refl _ _).bind fun _ =>
    ((agreesBelow_entry h).many.bind fun _ => .refl _ _).commit) _

theorem block_eq (s : List Char) : block s = blockStep block s := fix_eq blockStep s

instance shrinks_block : Shrinks block := shrinks_fix blockStep

/-! ## Keys -/

theorem identifier_append {c : Char} {cs s : List Char} (hc : isIdentifierStart c = true)
    (hcs : ∀ d ∈ cs, isIdentifierRest d = true) (hs : Stops isIdentifierRest s) :
    identifier (c :: cs ++ s) = .ok (c :: cs) s := by
  unfold identifier
  rw [List.cons_append, bind_of_ok (satisfy_cons hc _), bind_of_ok (takeWhile_append hcs hs)]
  rfl

theorem key_of_identifier {s rest cs : List Char} (h : identifier s = .ok cs rest) :
    key s = .ok cs rest := orElse_of_ok h _

theorem key_of_quoted {s rest cs : List Char} (h : quoted ('"' :: s) = .ok cs rest)
    (hk : isKey cs = true) : key ('"' :: s) = .ok cs rest := by
  have hident : Refuses identifier ('"' :: s) :=
    (refuses_satisfy (stops_cons.2 (by decide))).bind _
  unfold key
  rw [orElse_of_refuses hident, bind_of_ok (peek_of_ok (char_cons '"' s)), commit_eq_ok,
    expecting_eq_ok]
  exact quotedKey_eq_ok.2 ⟨h, hk⟩

def isKeyStart (c : Char) : Bool := isIdentifierStart c || c == '"'

theorem refuses_key {s : List Char} (h : Stops isKeyStart s) : Refuses key s := by
  have hident : Refuses identifier s :=
    (refuses_satisfy (h.imp fun c hc => by rw [isKeyStart, hc]; rfl)).bind _
  have hquote : Refuses (char '"') s := refuses_char fun hs => by
    cases h '"' hs
  exact hident.orElse (hquote.peek.bind _)

/-! ## Lists -/

theorem refuses_quoted {s : List Char} (h : s.head? ≠ some '"') : Refuses quoted s :=
  ((refuses_char h).bind _).expecting _

theorem listItem_of_quoted {s s' rest cs : List Char} (h : quoted s = .ok cs s')
    (hgap : gap s' = .ok () rest) : listItem s = .ok (String.ofList cs) rest := by
  unfold listItem
  rw [bind_of_ok h, bind_of_ok hgap]
  rfl

theorem refuses_listItem {s : List Char} (h : s.head? ≠ some '"') : Refuses listItem s :=
  (refuses_quoted h).bind _

theorem comma_of_gap {s rest : List Char} (h : gap s = .ok () rest) :
    comma (',' :: s) = .ok () rest := by
  unfold comma
  rw [bind_of_ok (char_cons ',' s)]
  exact h

theorem refuses_comma {s : List Char} (h : s.head? ≠ some ',') : Refuses comma s :=
  (refuses_char h).bind _

theorem list_of_items {s mid mid' rest : List Char} {items : List String} {o : Option Unit}
    (hgap : gap s = .ok () mid) (hitems : sepBy listItem comma mid = .ok items mid')
    (hcomma : optional comma mid' = .ok o (']' :: rest)) :
    list ('[' :: s) = .ok items rest := by
  unfold list
  rw [expecting_eq_ok, bind_of_ok (char_cons '[' s), bind_of_ok hgap, commit_eq_ok,
    bind_of_ok hitems, bind_of_ok hcomma, bind_eq_ok]
  exact ⟨']', rest, expecting_eq_ok.2 (char_cons ']' rest), rfl⟩

/-! ## Values -/

section

variable {block : Parser (List (String × Value))}

theorem value_of_quoted {s rest cs : List Char} (h : quoted s = .ok cs rest) :
    value block s = .ok (.text (String.ofList cs)) rest := by
  unfold value
  rw [expecting_eq_ok]
  exact orElse_of_ok (bind_pure_of_ok h fun cs => Value.text (String.ofList cs)) _

theorem value_of_list {s rest : List Char} {items : List String}
    (h : list ('[' :: s) = .ok items rest) : value block ('[' :: s) = .ok (.list items) rest := by
  unfold value
  rw [expecting_eq_ok, orElse_of_refuses ((refuses_quoted (by simp)).bind _)]
  exact orElse_of_ok (bind_pure_of_ok h Value.list) _

theorem refuses_list {s : List Char} (h : s.head? ≠ some '[') : Refuses list s :=
  ((refuses_char h).bind _).expecting _

theorem value_of_block {s rest : List Char} {entries : List (String × Value)}
    (h : block ('{' :: s) = .ok entries rest) :
    value block ('{' :: s) = .ok (.block entries) rest := by
  unfold value
  rw [expecting_eq_ok, orElse_of_refuses ((refuses_quoted (by simp)).bind _),
    orElse_of_refuses ((refuses_list (by simp)).bind _)]
  exact orElse_of_ok (bind_pure_of_ok h Value.block) _

end

theorem refuses_block {s : List Char} (h : s.head? ≠ some '{') : Refuses block s := by
  obtain ⟨e, he, hf⟩ : Refuses (blockStep block) s := ((refuses_char h).bind _).expecting _
  exact ⟨e, (block_eq s).trans he, hf⟩

theorem refuses_numeral {c : Char} (hc : c ≠ '-') (hd : c.isDigit = false) (s : List Char) :
    Refuses Numeral.parse (c :: s) :=
  refuses_optional_bind (refuses_head hc s) ((refuses_takeSome (stops_cons.2 hd)).bind _)

theorem boolean_text (b : Bool) {s : List Char} (hs : Stops isIdentifierRest s) :
    boolean (Template.boolText b ++ s) = .ok b s := by
  have hword : ((do literal "true".toList; pure true) <|>
      (do literal "false".toList; pure false) : Parser Bool) (Template.boolText b ++ s) =
      .ok b s := by
    cases b with
    | true => exact orElse_of_ok (bind_pure_of_ok (literal_append "true".toList s) fun _ => true) _
    | false =>
      refine (orElse_of_refuses ((refuses_literal ?_).bind _) _).trans
        (bind_pure_of_ok (literal_append "false".toList s) fun _ => false)
      exact not_cons_prefix_cons (by decide) _ _
  unfold boolean
  rw [bind_of_ok hword, bind_of_ok (notNext_of_stops hs)]
  rfl

theorem value_bool (b : Bool) {s : List Char} (hs : Stops isIdentifierRest s) :
    value block (Template.boolText b ++ s) = .ok (.bool b) s := by
  obtain ⟨c, t, ht, hc⟩ : ∃ c t, Template.boolText b = c :: t ∧ (c = 't' ∨ c = 'f') := by
    cases b
    · exact ⟨_, _, rfl, .inr rfl⟩
    · exact ⟨_, _, rfl, .inl rfl⟩
  have hbool := boolean_text b hs
  rw [ht, List.cons_append] at hbool ⊢
  have hhead : ∀ d, d ≠ 't' → d ≠ 'f' → (c :: (t ++ s)).head? ≠ some d := by
    rintro d h1 h2 h
    cases h
    exact hc.elim h1 h2
  have hnumber : Refuses number (c :: (t ++ s)) := by
    rcases hc with rfl | rfl
    · exact (refuses_numeral (by decide) (by decide) _).bind _
    · exact (refuses_numeral (by decide) (by decide) _).bind _
  unfold value
  rw [expecting_eq_ok,
    orElse_of_refuses ((refuses_quoted (hhead _ (by decide) (by decide))).bind _),
    orElse_of_refuses ((refuses_list (hhead _ (by decide) (by decide))).bind _),
    orElse_of_refuses ((refuses_block (hhead _ (by decide) (by decide))).bind _),
    orElse_of_refuses (hnumber.bind _)]
  exact bind_pure_of_ok hbool Value.bool

/-! ## Entries and blocks -/

/-- What may follow the value of an entry. -/
def separator : Parser Unit := do
  gap
  let _ ← optional comma

theorem separator_gap {g s mid : List Char} (hg : Gap g) (hs : gap s = .ok () mid)
    (hmid : mid.head? ≠ some ',') : separator (g ++ s) = .ok () mid := by
  unfold separator
  rw [bind_of_ok ((gap_append hg s).trans hs)]
  exact bind_of_ok (optional_of_refuses (refuses_comma hmid)) _

theorem separator_comma {g g' s mid : List Char} (hg : Gap g) (hg' : Gap g')
    (hs : gap s = .ok () mid) : separator (g ++ ',' :: g' ++ s) = .ok () mid := by
  have hcomma : optional comma (',' :: (g' ++ s)) = .ok (some ()) mid :=
    optional_eq_ok.2 (.inl ⟨(), rfl, comma_of_gap ((gap_append hg' s).trans hs)⟩)
  unfold separator
  rw [List.append_assoc, List.cons_append,
    bind_of_ok (gap_append_token hg (stops_cons.2 (by decide)))]
  exact bind_of_ok hcomma _

section

variable {block : Parser (List (String × Value))} {s s₁ s₂ s₃ s₄ mid k : List Char}

/-- The name, what stands for its value, and what may follow that. -/
theorem entry_of_parts {v : Value} (hkey : key s = .ok k s₁) (hgap : gap s₁ = .ok () s₂)
    (hvalue : ((do let _ ← char '='; gap; value block) <|>
      (do let entries ← block; pure (.block entries)) : Parser Value) s₂ = .ok v s₃)
    (hsep : separator s₃ = .ok () mid) : entry block s = .ok (String.ofList k, v) mid := by
  obtain ⟨_, s₄, hgap', htail⟩ := bind_eq_ok.1 hsep
  obtain ⟨_, _, hcomma, hmid⟩ := bind_eq_ok.1 htail
  obtain ⟨_, rfl⟩ := pure_eq_ok.1 hmid
  unfold entry
  rw [bind_of_ok hkey, bind_of_ok hgap, bind_of_ok (expecting_eq_ok.2 (commit_eq_ok.2 hvalue)),
    bind_of_ok hgap', bind_of_ok hcomma]
  rfl

theorem entry_of_value {v : Value} (hkey : key s = .ok k s₁) (hgap : gap s₁ = .ok () ('=' :: s₂))
    (hgap' : gap s₂ = .ok () s₃) (hvalue : value block s₃ = .ok v s₄)
    (hsep : separator s₄ = .ok () mid) : entry block s = .ok (String.ofList k, v) mid := by
  have hassigned : (do let _ ← char '='; gap; value block : Parser Value) ('=' :: s₂) =
      .ok v s₄ := by
    rw [bind_of_ok (char_cons '=' s₂), bind_of_ok hgap', hvalue]
  exact entry_of_parts hkey hgap (orElse_of_ok hassigned _) hsep

theorem entry_of_block {entries : List (String × Value)} (hkey : key s = .ok k s₁)
    (hgap : gap s₁ = .ok () ('{' :: s₂)) (hblock : block ('{' :: s₂) = .ok entries s₃)
    (hsep : separator s₃ = .ok () mid) :
    entry block s = .ok (String.ofList k, .block entries) mid := by
  refine entry_of_parts hkey hgap ?_ hsep
  rw [orElse_of_refuses ((refuses_head (by decide) s₂).bind _)]
  exact bind_pure_of_ok hblock Value.block

end

theorem block_of_entries {s mid rest : List Char} {entries : List (String × Value)}
    (hgap : gap s = .ok () mid) (hentries : many (entry block) mid = .ok entries ('}' :: rest)) :
    block ('{' :: s) = .ok entries rest := by
  rw [block_eq]
  unfold blockStep
  rw [expecting_eq_ok, bind_of_ok (char_cons '{' s), bind_of_ok hgap, commit_eq_ok,
    bind_of_ok hentries, bind_eq_ok]
  exact ⟨'}', rest, expecting_eq_ok.2 (char_cons '}' rest), rfl⟩

theorem file_of_entries {s mid rest : List Char} {entries : List (String × Value)}
    (hgap : gap s = .ok () mid) (hentries : many (entry block) mid = .ok entries rest) :
    file s = .ok entries rest := by
  unfold file
  rw [bind_of_ok hgap, hentries]

theorem withoutMark_of_head? {text : List Char} (h : text.head? ≠ some '\uFEFF') :
    withoutMark text = text := by
  cases text with
  | nil => rfl
  | cons c cs =>
    rw [withoutMark]
    rintro rest ⟨⟩
    exact h rfl

theorem parse_of_file {text : String} {entries : List (String × Value)}
    (hmark : text.toList.head? ≠ some '\uFEFF') (h : file text.toList = .ok entries []) :
    Tree.parse text = .ok ⟨entries⟩ := by
  unfold Tree.parse runAll
  rw [withoutMark_of_head? hmark, h]
  rfl

end Phrasebook.Resource
