import Phrasebook.Proofs.Resource.SpanPart
import Phrasebook.Proofs.Template.Canonical
/-!
# Spans in resource strings — copied as they stand

A resource string hands the text of a span on to the grammar of templates.  It finds the end of the
span by counting braces outside of string arguments; where the span is one of that grammar and
stands on one line, the text is kept to the letter (`span_of_spanText`).
-/
namespace Phrasebook.Resource

open Phrasebook.Parser

/-! ## Respelled texts -/

/-- The parts of a span that are spelled `cs'` make the text `cs`, whatever follows them. -/
def ReadAs (cs' cs : List Char) : Prop :=
  ∀ s, joined (spanPart span) (cs' ++ s) = (joined (spanPart span) s).map (cs ++ ·)

theorem readAs_of_ok {cs' cs : List Char} (h : ∀ s, spanPart span (cs' ++ s) = .ok cs s) :
    ReadAs cs' cs := fun s => joined_of_ok (h s)

theorem readAs_nil : ReadAs [] [] := by
  intro s
  rw [List.nil_append]
  cases joined (spanPart span) s <;> rfl

theorem ReadAs.append {cs' cs ds' ds : List Char} (hc : ReadAs cs' cs) (hd : ReadAs ds' ds) :
    ReadAs (cs' ++ ds') (cs ++ ds) := by
  intro s
  rw [List.append_assoc, hc, hd, Reply.map_map]
  simp only [List.append_assoc]

theorem span_of_readAs {cs' cs : List Char} (h : ReadAs cs' cs) (s : List Char) :
    span ('$' :: '{' :: cs' ++ ['}'] ++ s) = .ok ('$' :: '{' :: cs ++ ['}']) s := by
  have hparts : joined (spanPart span) (cs' ++ '}' :: s) = .ok cs ('}' :: s) := by
    rw [h, joined_of_refuses (refuses_spanPart_close s), Reply.map_ok, List.append_nil]
  rw [List.append_assoc]
  exact span_eq_ok.2 ⟨_, _, rfl, hparts, rfl⟩

/-- A text with the quotes of some of its string arguments escaped: of any choice of those that
hold no double quote themselves. -/
inductive Respelled : List Char → List Char → Prop
  | same (cs : List Char) : Respelled cs cs
  | plain {c : Char} {cs cs' : List Char} : c ≠ '"' → Respelled cs cs' →
      Respelled (c :: cs) (c :: cs')
  | kept {s body cs cs' : List Char} : Template.StringText s body → Respelled cs cs' →
      Respelled ('"' :: (body ++ '"' :: cs)) ('"' :: (body ++ '"' :: cs'))
  | escaped {s body cs cs' : List Char} : Template.StringText s body → '"' ∉ body →
      Respelled cs cs' →
      Respelled ('"' :: (body ++ '"' :: cs)) ('\\' :: '"' :: (body ++ '\\' :: '"' :: cs'))

theorem Respelled.eq_nil {t : List Char} (h : Respelled [] t) : t = [] := by
  cases h with
  | same => rfl

theorem Respelled.of_cons {c : Char} (hc : c ≠ '"') {cs t : List Char}
    (h : Respelled (c :: cs) t) : ∃ cs', t = c :: cs' ∧ Respelled cs cs' := by
  cases h with
  | same => exact ⟨cs, rfl, .same cs⟩
  | plain _ h => exact ⟨_, rfl, h⟩
  | kept | escaped => exact absurd rfl hc

/-- Where a string argument ends is a matter of its own characters. -/
theorem stringText_append_inj {s s' cs cs' rest rest' : List Char} (h : Template.StringText s cs)
    (h' : Template.StringText s' cs') (heq : cs ++ '"' :: rest = cs' ++ '"' :: rest') :
    cs = cs' ∧ rest = rest' := by
  have hread : many Template.stringChar (cs ++ '"' :: rest) = .ok s ('"' :: rest) :=
    Template.many_stringChar_eq_ok.2 ⟨cs, h, rfl⟩
  have hread' : many Template.stringChar (cs ++ '"' :: rest) = .ok s' ('"' :: rest') :=
    Template.many_stringChar_eq_ok.2 ⟨cs', h', heq⟩
  rw [hread] at hread'
  injection hread' with _ hrest
  injection hrest with _ hrest
  subst hrest
  exact ⟨List.append_cancel_right heq, rfl⟩

theorem Respelled.of_string {s body cs t : List Char} (hbody : Template.StringText s body)
    (h : Respelled ('"' :: (body ++ '"' :: cs)) t) :
    ∃ cs', Respelled cs cs' ∧ (t = '"' :: (body ++ '"' :: cs') ∨
      '"' ∉ body ∧ t = '\\' :: '"' :: (body ++ '\\' :: '"' :: cs')) := by
  generalize hr : body ++ '"' :: cs = r at h
  cases h with
  | same => exact ⟨cs, .same cs, .inl (by rw [hr])⟩
  | plain hc _ => exact absurd rfl hc
  | kept hbody' h =>
    obtain ⟨rfl, rfl⟩ := stringText_append_inj hbody hbody' hr
    exact ⟨_, h, .inl rfl⟩
  | escaped hbody' hquote h =>
    obtain ⟨rfl, rfl⟩ := stringText_append_inj hbody hbody' hr
    exact ⟨_, h, .inr ⟨hquote, rfl⟩⟩

/-- However the text is respelled, together with what follows it, the parts of a span make of it
the text as it was.  A string argument of resources ends with its line. -/
def Transparent (cs : List Char) : Prop :=
  '\n' ∉ cs → ∀ rest t, Respelled (cs ++ rest) t →
    ∃ cs' rest', t = cs' ++ rest' ∧ ReadAs cs' cs ∧ Respelled rest rest'

theorem transparent_nil : Transparent [] := fun _ _ t h => ⟨[], t, rfl, readAs_nil, h⟩

theorem Transparent.append {cs ds : List Char} (hc : Transparent cs) (hd : Transparent ds) :
    Transparent (cs ++ ds) := by
  intro hline rest t h
  rw [List.mem_append, not_or] at hline
  rw [List.append_assoc] at h
  obtain ⟨cs', _, rfl, hcs, h⟩ := hc hline.1 _ _ h
  obtain ⟨ds', rest', rfl, hds, h⟩ := hd hline.2 _ _ h
  exact ⟨cs' ++ ds', rest', (List.append_assoc _ _ _).symm, hcs.append hds, h⟩

theorem transparent_plain {c : Char} (hc : isPlainPart c = true) : Transparent [c] := by
  intro _ rest t h
  obtain ⟨rest', rfl, hrest⟩ := h.of_cons (Text.ne_of_class hc rfl)
  exact ⟨[c], rest', rfl, readAs_of_ok (spanPart_plain hc), hrest⟩

theorem Transparent.cons {c : Char} (hc : isPlainPart c = true) {cs : List Char}
    (h : Transparent cs) : Transparent (c :: cs) := (transparent_plain hc).append h

theorem transparent_of_plain : ∀ {cs : List Char}, (∀ c ∈ cs, c ≠ '\n' → isPlainPart c = true) →
    Transparent cs
  | [], _ => transparent_nil
  | c :: cs, h => by
    intro hline
    have hc := h c List.mem_cons_self fun hn => hline (by rw [hn]; exact List.mem_cons_self)
    exact (transparent_of_plain fun d hd => h d (List.mem_cons_of_mem c hd)).cons hc hline

theorem transparent_word {cs : List Char} (h : cs.all isPlainPart = true) : Transparent cs :=
  transparent_of_plain fun c hc _ => List.all_eq_true.1 h c hc

/-- A whole span, and what it is respelled as. -/
theorem span_of_transparent {cs rest t : List Char} (h : Transparent cs)
    (hline : '\n' ∉ '$' :: '{' :: cs ++ ['}'])
    (ht : Respelled ('$' :: '{' :: cs ++ ['}'] ++ rest) t) :
    ∃ cs' rest', t = cs' ++ rest' ∧ Respelled rest rest' ∧
      ∀ s, span (cs' ++ s) = .ok ('$' :: '{' :: cs ++ ['}']) s := by
  have hcs : '\n' ∉ cs := fun hmem => hline (by simp [hmem])
  rw [List.append_assoc] at ht
  obtain ⟨_, rfl, hbrace⟩ := ht.of_cons (by decide)
  obtain ⟨_, rfl, hbody⟩ := hbrace.of_cons (by decide)
  obtain ⟨cs', _, rfl, hread, hclose⟩ := h hcs _ _ hbody
  obtain ⟨rest', rfl, hrest⟩ := hclose.of_cons (by decide)
  exact ⟨'$' :: '{' :: cs' ++ ['}'], rest', by simp, hrest, span_of_readAs hread⟩

theorem Transparent.span {cs : List Char} (h : Transparent cs) :
    Transparent ('$' :: '{' :: cs ++ ['}']) := by
  intro hline rest t ht
  obtain ⟨cs', rest', rfl, hrest, hspan⟩ := span_of_transparent h hline ht
  exact ⟨cs', rest', rfl, readAs_of_ok fun s => orElse_of_ok (hspan s) _, hrest⟩

theorem transparent_string {s cs : List Char} (h : Template.StringText s cs) :
    Transparent ('"' :: cs ++ ['"']) := by
  intro hline rest t ht
  have hcs : '\n' ∉ cs := fun hmem => hline (by simp [hmem])
  rw [List.append_assoc] at ht
  obtain ⟨rest', hrest, rfl | ⟨hquote, rfl⟩⟩ := ht.of_string h
  · refine ⟨'"' :: cs ++ ['"'], rest', by simp, readAs_of_ok fun r => ?_, hrest⟩
    rw [List.append_assoc]
    exact spanPart_quoted (.of_stringText h hcs fun _ _ => rfl) r
  · refine ⟨'\\' :: '"' :: cs ++ ['\\', '"'], rest', by simp, readAs_of_ok fun r => ?_, hrest⟩
    rw [List.append_assoc]
    refine spanPart_escapedQuoted (.of_stringText h hcs fun c hc => ?_) r
    have hne : c ≠ '"' ∧ c ≠ '\n' := ⟨fun he => hquote (he ▸ hc), fun he => hcs (he ▸ hc)⟩
    simp [isInEscaped, hne.1, hne.2]

/-! ## Spans of the grammar of templates -/

theorem isPlainPart_of_isBlank {c : Char} (h : Text.isBlank c = true) (hc : c ≠ '\n') :
    isPlainPart c = true := by
  have hne : ∀ d, Text.isBlank d = false → c ≠ d := fun d hd => Text.ne_of_class h hd
  simp [isPlainPart, hne '$' (by decide), hne '{' (by decide), hne '}' (by decide),
    hne '"' (by decide), hne '\\' (by decide), hc]

theorem isPlainPart_of_isNameRest {c : Char} (h : Template.isNameRest c = true) :
    isPlainPart c = true := by
  have hne : ∀ d, Template.isNameRest d = false → c ≠ d := fun d hd => Text.ne_of_class h hd
  simp [isPlainPart, hne '$' (by decide), hne '{' (by decide), hne '}' (by decide),
    hne '"' (by decide), hne '\\' (by decide), hne '\n' (by decide)]

theorem transparent_blanks {b : List Char} (hb : Template.Blanks b) : Transparent b :=
  transparent_of_plain fun c hc hn => isPlainPart_of_isBlank (hb c hc) hn

theorem transparent_nameRest {cs : List Char} (h : ∀ c ∈ cs, Template.isNameRest c = true) :
    Transparent cs := transparent_of_plain fun c hc _ => isPlainPart_of_isNameRest (h c hc)

theorem transparent_digits {ds : List Char} (h : Template.Digits ds) : Transparent ds :=
  transparent_nameRest fun c hc => Template.isNameRest_of_isDigit (h.2 c hc)

theorem transparent_name {f : List Char} (h : Template.IsName f) : Transparent f := by
  obtain ⟨first, others, rfl, hfirst, hothers⟩ := h
  refine transparent_nameRest fun c hc => ?_
  rcases List.mem_cons.1 hc with rfl | hc
  · exact Template.isNameRest_of_isNameStart hfirst
  · exact hothers c hc

theorem transparent_numeral {n : Numeral} (h : n.WellFormed) : Transparent n.text := by
  obtain ⟨negative, whole, places⟩ := n
  have hsign : Transparent (if negative then ['-'] else []) := by
    cases negative <;> exact transparent_word rfl
  refine (hsign.append (transparent_digits h.whole)).append ?_
  cases places with
  | none => exact transparent_nil
  | some ds => exact (transparent_digits (h.places ds rfl)).cons rfl

mutual

theorem transparent_argText : ∀ {arg : Arg} {cs : List Char}, Template.ArgText arg cs →
    Transparent cs
  | _, _, .wrapped hb hc hb' =>
    (((transparent_blanks hb).append (transparent_callText hc)).append
      (transparent_blanks hb')).span
  | _, _, .str hs => transparent_string hs
  | _, _, .positional hd _ => (transparent_digits hd).cons rfl
  | _, _, .number hn _ => transparent_numeral hn
  | _, _, .bool b => by cases b <;> exact transparent_word rfl
  | _, _, .bare hc _ => transparent_callText hc

theorem transparent_callText : ∀ {g : List Char} {c : Call} {cs : List Char},
    Template.CallText g c cs → Transparent cs
  | _, _, _, .nullary hf hg hb =>
    (((transparent_name hf).append (transparent_blanks hg)).append
      ((transparent_blanks hb).cons rfl)).append (transparent_word rfl)
  | _, _, _, .applied hf hg hb ha hm hb' =>
    ((((((transparent_name hf).append (transparent_blanks hg)).append
      ((transparent_blanks hb).cons rfl)).append (transparent_argText ha)).append
      (transparent_moreText hm)).append (transparent_blanks hb')).append (transparent_word rfl)

theorem transparent_moreText : ∀ {args : List Arg} {more : List Char},
    Template.MoreText args more → Transparent more
  | _, _, .nil => transparent_nil
  | _, _, .cons hb hb' ha hm =>
    (((transparent_blanks hb).append ((transparent_blanks hb').cons rfl)).append
      (transparent_argText ha)).append (transparent_moreText hm)

end

/-- A span is read as it was, whatever string arguments are respelled. -/
theorem span_of_respelled {node : Node} {cs t : List Char} (h : Template.SpanText node cs)
    (hline : '\n' ∉ cs) (ht : Respelled cs t) (s : List Char) : span (t ++ s) = .ok cs s := by
  obtain ⟨body, rfl, hbody⟩ : ∃ body, cs = '$' :: '{' :: body ++ ['}'] ∧ Transparent body := by
    cases h with
    | positional hb hd _ hb' =>
      exact ⟨_, rfl, ((transparent_blanks hb).append
        ((transparent_digits hd).cons (c := '_') rfl)).append (transparent_blanks hb')⟩
    | call hb hc hb' =>
      exact ⟨_, rfl, ((transparent_blanks hb).append (transparent_callText hc)).append
        (transparent_blanks hb')⟩
  rw [← List.append_nil ('$' :: '{' :: body ++ ['}'])] at ht
  obtain ⟨cs', rest', rfl, hrest, hspan⟩ := span_of_transparent hbody hline ht
  rw [hrest.eq_nil, List.append_nil]
  exact hspan s

/-- A span on one line is kept as it stands. -/
theorem span_of_spanText {node : Node} {cs : List Char} (h : Template.SpanText node cs)
    (hline : '\n' ∉ cs) (s : List Char) : span (cs ++ s) = .ok cs s :=
  span_of_respelled h hline (.same cs) s

/-- **Resources hand spans on as they are**: whatever string arguments of a span are written with
escaped quotes, its end is found, and what is handed on is the span with plain ones. -/
theorem span_transparent {t : String} {node : Node} (hnode : node.isText = false)
    (ht : Expression.parse t = .ok ⟨[node]⟩) (hline : '\n' ∉ t.toList) {t' : List Char}
    (hrespelled : Respelled t.toList t') (rest : List Char) :
    span (t' ++ rest) = .ok t.toList rest :=
  span_of_respelled (Template.spanText_of_single hnode (Template.parse_eq_ok.1 ht)) hline
    hrespelled rest

theorem span_transparent_nested :
    Respelled "$\x7bf(\"\x7d\x7b\",g(\"\\\"\",\"x\"))\x7d".toList
        "$\x7bf(\\\"\x7d\x7b\\\",g(\"\\\"\",\\\"x\\\"))\x7d".toList ∧
      span ("$\x7bf(\\\"\x7d\x7b\\\",g(\"\\\"\",\\\"x\\\"))\x7d".toList ++ "\x7d\"".toList) =
        .ok "$\x7bf(\"\x7d\x7b\",g(\"\\\"\",\"x\"))\x7d".toList "\x7d\"".toList := by
  have hrespelled : Respelled "$\x7bf(\"\x7d\x7b\",g(\"\\\"\",\"x\"))\x7d".toList
      "$\x7bf(\\\"\x7d\x7b\\\",g(\"\\\"\",\\\"x\\\"))\x7d".toList := by
    have hlast : Respelled "\"x\"))\x7d".toList "\\\"x\\\"))\x7d".toList :=
      .escaped (.plain (by decide) (by decide) .nil) (by decide) (.same _)
    have hkept : Respelled "\"\\\"\",\"x\"))\x7d".toList "\"\\\"\",\\\"x\\\"))\x7d".toList :=
      .kept (.escape rfl .nil) (.plain (by decide) hlast)
    have hfirst : Respelled "\"\x7d\x7b\",g(\"\\\"\",\"x\"))\x7d".toList
        "\\\"\x7d\x7b\\\",g(\"\\\"\",\\\"x\\\"))\x7d".toList :=
      .escaped (.plain (by decide) (by decide) (.plain (by decide) (by decide) .nil)) (by decide)
        (.plain (by decide) (.plain (by decide) (.plain (by decide) hkept)))
    exact .plain (by decide) (.plain (by decide) (.plain (by decide) (.plain (by decide) hfirst)))
  have hparse := Template.parse_print_of_isCanonical (e := ⟨[.call ⟨"f", [.str "\x7d\x7b",
    .call "g" [.str "\"", .str "x"]]⟩]⟩) rfl rfl
  exact ⟨hrespelled, span_transparent rfl hparse (by decide) hrespelled _⟩

end Phrasebook.Resource
