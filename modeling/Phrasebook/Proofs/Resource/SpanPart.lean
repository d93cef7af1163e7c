import Phrasebook.Proofs.Template.Spelling
import Phrasebook.Resource.Grammar
/-!
# The parts of spans — what the scanner of resource strings reads

The scanner does not know the grammar of templates.  It goes through a span part by part: spans in
it, string arguments with plain or with escaped quotes, backslashes with what they escape, and
characters that stand for themselves.
-/
namespace Phrasebook.Resource

open Phrasebook.Parser

/-! ## Progress -/

instance consumes_keptEscape (test : Char → Bool) : Consumes (keptEscape test) := by
  unfold keptEscape
  infer_instance

instance consumes_quotedInSpan : Consumes quotedInSpan := by
  unfold quotedInSpan
  infer_instance

instance consumes_escapedQuotedInSpan : Consumes escapedQuotedInSpan := by
  unfold escapedQuotedInSpan escapedQuote
  infer_instance

instance shrinks_spanPart (span : Parser (List Char)) [Shrinks span] : Shrinks (spanPart span) := by
  unfold spanPart
  infer_instance

instance consumes_spanStep (span : Parser (List Char)) [Shrinks span] :
    Consumes (spanStep span) := by
  unfold spanStep
  infer_instance

theorem agreesBelow_spanPart {n : Nat} {p q : Parser (List Char)} (h : AgreesBelow n p q) :
    AgreesBelow n (spanPart p) (spanPart q) := h.orElse (.refl n _)

/-- The opener of a span is read before its parts. -/
instance guarded_spanStep : Guarded spanStep where
  shrinks _ _ := inferInstance
  below n _ _ _ h := .behind (literal ['$', '{']) fun _ => (agreesBelow_spanPart h).many.bind
    fun _ => .refl n _

theorem span_eq (s : List Char) : span s = spanStep span s := fix_eq spanStep s

instance shrinks_span : Shrinks span := shrinks_fix spanStep

instance consumes_span : Consumes span where
  length_lt h := by
    rw [span_eq] at h
    exact Consumes.length_lt h

instance consumes_spanPart : Consumes (spanPart span) := by
  unfold spanPart
  infer_instance

/-! ## Repetitions of text -/

/-- The texts of a repetition in one. -/
def joined (p : Parser (List Char)) : Parser (List Char) := fun s => (many p s).map List.flatten

section

variable {p : Parser (List Char)} [Consumes p] {s rest cs : List Char}

theorem joined_of_ok (h : p s = .ok cs rest) : joined p s = (joined p rest).map (cs ++ ·) := by
  unfold joined
  rw [many_of_ok h, Reply.map_map, Reply.map_map]
  rfl

theorem joined_of_refuses (h : Refuses p s) : joined p s = .ok [] s := by
  unfold joined
  rw [many_of_refuses h]
  rfl

theorem joined_eq_ok :
    joined p s = .ok cs rest ↔ Refuses p s ∧ cs = [] ∧ s = rest ∨
      ∃ ds mid es, p s = .ok ds mid ∧ joined p mid = .ok es rest ∧ cs = ds ++ es := by
  constructor
  · intro h
    obtain ⟨parts, rfl, hmany⟩ := Reply.map_eq_ok.1 h
    cases parts with
    | nil =>
      obtain ⟨hrefuses, rfl⟩ := many_eq_ok_nil.1 hmany
      exact .inl ⟨hrefuses, rfl, rfl⟩
    | cons ds parts =>
      obtain ⟨mid, hds, hparts⟩ := many_eq_ok_cons.1 hmany
      exact .inr ⟨ds, mid, _, hds, Reply.map_eq_ok.2 ⟨parts, rfl, hparts⟩, rfl⟩
  · rintro (⟨h, rfl, rfl⟩ | ⟨ds, mid, es, hds, hes, rfl⟩)
    · exact joined_of_refuses h
    · rw [joined_of_ok hds, hes, Reply.map_ok]

end

/-! ## The parts of a span -/

theorem refuses_span {s : List Char} (h : ¬ ['$', '{'] <+: s) : Refuses span s := by
  obtain ⟨e, he, hf⟩ := (refuses_literal h).bind fun _ => do
    let parts ← many (spanPart span)
    let _ ← char '}'
    pure ('$' :: '{' :: parts.flatten ++ ['}'])
  exact ⟨e, (span_eq s).trans he, hf⟩

theorem refuses_head {c d : Char} (hc : c ≠ d) (s : List Char) : Refuses (char d) (c :: s) :=
  refuses_char fun h => hc (Option.some_inj.1 h)

theorem refuses_keptEscape {c : Char} (hc : c ≠ '\\') (test : Char → Bool) (s : List Char) :
    Refuses (keptEscape test) (c :: s) := (refuses_head hc s).bind _

theorem refuses_quotedInSpan {c : Char} (hc : c ≠ '"') (s : List Char) :
    Refuses quotedInSpan (c :: s) := (refuses_head hc s).bind _

theorem refuses_escapedQuotedInSpan {c : Char} (hc : c ≠ '\\') (s : List Char) :
    Refuses escapedQuotedInSpan (c :: s) :=
  (refuses_literal (not_cons_prefix_cons hc ['"'] s)).bind _

/-- A character that stands for itself in a span, a dollar sign where it opens no span. -/
def isSpanPlain (c : Char) : Bool :=
  c != '{' && c != '}' && c != '"' && c != '\\' && c != '\n'

/-- A character that stands for itself in a span, wherever it stands. -/
def isPlainPart (c : Char) : Bool :=
  c != '$' && c != '{' && c != '}' && c != '"' && c != '\\' && c != '\n'

theorem spanPart_of_isSpanPlain {c : Char} (hc : isSpanPlain c = true) {s : List Char}
    (hs : ¬ ['$', '{'] <+: c :: s) : spanPart span (c :: s) = .ok [c] s := by
  have hne : ∀ d, isSpanPlain d = false → c ≠ d := fun d hd => Text.ne_of_class hc hd
  have htest : (c != '{' && c != '}' && c != '"' && c != '\n') = true := by
    simp [hne '{' rfl, hne '}' rfl, hne '"' rfl, hne '\n' rfl]
  unfold spanPart
  rw [orElse_of_refuses (refuses_span hs),
    orElse_of_refuses (refuses_quotedInSpan (hne '"' rfl) s),
    orElse_of_refuses (refuses_escapedQuotedInSpan (hne '\\' rfl) s),
    orElse_of_refuses (refuses_keptEscape (hne '\\' rfl) _ s)]
  exact bind_pure_of_ok (satisfy_cons htest s) _

theorem spanPart_plain {c : Char} (hc : isPlainPart c = true) (s : List Char) :
    spanPart span (c :: s) = .ok [c] s := by
  have hne : ∀ d, isPlainPart d = false → c ≠ d := fun d hd => Text.ne_of_class hc hd
  have hplain : isSpanPlain c = true := by
    simp [isSpanPlain, hne '{' rfl, hne '}' rfl, hne '"' rfl, hne '\\' rfl, hne '\n' rfl]
  exact spanPart_of_isSpanPlain hplain (not_cons_prefix_cons (hne '$' rfl) ['{'] s)

theorem refuses_spanPart_close (s : List Char) : Refuses (spanPart span) ('}' :: s) :=
  (refuses_span (not_cons_prefix_cons (by decide) ['{'] s)).orElse <|
    (refuses_quotedInSpan (by decide) s).orElse <|
    (refuses_escapedQuotedInSpan (by decide) s).orElse <|
    (refuses_keptEscape (by decide) _ s).orElse <|
    (refuses_satisfy (stops_cons.2 rfl)).bind _

theorem span_eq_ok {s cs rest : List Char} : span s = .ok cs rest ↔
    ∃ s' v, s = '$' :: '{' :: s' ∧ joined (spanPart span) s' = .ok v ('}' :: rest) ∧
      cs = '$' :: '{' :: (v ++ ['}']) := by
  rw [span_eq, spanStep]
  simp only [bind_eq_ok, literal_eq_ok, char_eq_ok, pure_eq_ok, joined, Reply.map_eq_ok]
  constructor
  · rintro ⟨_, _, rfl, parts, _, hmany, _, _, ⟨rfl, rfl⟩, rfl, rfl⟩
    exact ⟨_, _, rfl, ⟨parts, rfl, hmany⟩, rfl⟩
  · rintro ⟨_, _, rfl, ⟨parts, rfl, hmany⟩, rfl⟩
    exact ⟨(), _, rfl, parts, _, hmany, '}', _, ⟨rfl, rfl⟩, rfl, rfl⟩

/-! ## String arguments -/

/-- A character that a string argument with escaped quotes holds as it is. -/
def isEscapedPlain (c : Char) : Bool := c != '\\' && c != '"' && c != '\n'

/-- The inside of a string argument on one line: characters that stand for themselves, and
backslashes in front of characters of a class. -/
inductive Body (test : Char → Bool) : List Char → Prop
  | nil : Body test []
  | plain {c : Char} {cs : List Char} : isEscapedPlain c = true → Body test cs →
      Body test (c :: cs)
  | escape {c : Char} {cs : List Char} : test c = true → Body test cs →
      Body test ('\\' :: c :: cs)

namespace Body

variable {test : Char → Bool} {cs ds : List Char}

theorem append (h : Body test cs) (hds : Body test ds) : Body test (cs ++ ds) := by
  induction h with
  | nil => exact hds
  | plain hc _ ih => exact .plain hc ih
  | escape hc _ ih => exact .escape hc ih

theorem of_plain : ∀ {cs : List Char}, (∀ c ∈ cs, isEscapedPlain c = true) → Body test cs
  | [], _ => .nil
  | _ :: _, h => .plain (h _ List.mem_cons_self) (of_plain fun d hd => h d (List.mem_cons_of_mem _ hd))

/-- The string arguments of templates, on one line. -/
theorem of_stringText {s : List Char} (h : Template.StringText s cs) (hline : '\n' ∉ cs)
    (htest : ∀ c ∈ cs, test c = true) : Body test cs := by
  induction h with
  | nil => exact .nil
  | @plain c s cs h1 h2 _ ih =>
    rw [List.mem_cons, not_or] at hline
    rw [List.forall_mem_cons] at htest
    refine .plain ?_ (ih hline.2 htest.2)
    simp [isEscapedPlain, h1, h2, Ne.symm hline.1]
  | escape _ _ ih =>
    rw [List.mem_cons, List.mem_cons, not_or, not_or] at hline
    rw [List.forall_mem_cons, List.forall_mem_cons] at htest
    exact .escape htest.2.1 (ih hline.2.2 htest.2.2)

end Body

/-- A repetition of the parser reads bodies, a piece at a time. -/
structure ReadsBody (part : Parser (List Char)) (test : Char → Bool) : Prop where
  plain  : ∀ c s, isEscapedPlain c = true → joined part (c :: s) = (joined part s).map (c :: ·)
  escape : ∀ c s, test c = true → part ('\\' :: c :: s) = .ok ['\\', c] s
  sound  : ∀ s cs rest, part s = .ok cs rest → Body test cs ∧ s = cs ++ rest

namespace ReadsBody

variable {part : Parser (List Char)} [Consumes part] {test : Char → Bool}

theorem joined_append (h : ReadsBody part test) {cs rest : List Char} (hcs : Body test cs)
    (hrest : Refuses part rest) : joined part (cs ++ rest) = .ok cs rest := by
  induction hcs with
  | nil => exact joined_of_refuses hrest
  | plain hc _ ih =>
    rw [List.cons_append, h.plain _ _ hc, ih]
    rfl
  | escape hc _ ih =>
    rw [List.cons_append, List.cons_append, joined_of_ok (h.escape _ _ hc), ih]
    rfl

theorem of_joined (h : ReadsBody part test) {s cs rest : List Char}
    (hs : joined part s = .ok cs rest) : Body test cs ∧ s = cs ++ rest := by
  obtain ⟨-, rfl, rfl⟩ | ⟨ds, mid, es, hds, hes, rfl⟩ := joined_eq_ok.1 hs
  · exact ⟨.nil, rfl⟩
  · have hlt : mid.length < s.length := Consumes.length_lt hds
    obtain ⟨hbody, rfl⟩ := h.sound s ds mid hds
    obtain ⟨hbody', rfl⟩ := h.of_joined hes
    exact ⟨hbody.append hbody', (List.append_assoc _ _ _).symm⟩
termination_by s.length

end ReadsBody

theorem keptEscape_cons {test : Char → Bool} {c : Char} (hc : test c = true) (s : List Char) :
    keptEscape test ('\\' :: c :: s) = .ok ['\\', c] s := by
  unfold keptEscape
  rw [bind_of_ok (char_cons '\\' _)]
  exact bind_pure_of_ok (satisfy_cons hc _) _

theorem keptEscape_eq_ok {test : Char → Bool} {s cs rest : List Char} :
    keptEscape test s = .ok cs rest ↔ ∃ c, test c = true ∧ cs = ['\\', c] ∧ s = '\\' :: c :: rest := by
  constructor
  · intro h
    unfold keptEscape at h
    simp only [bind_eq_ok, char_eq_ok, satisfy_eq_ok, pure_eq_ok] at h
    obtain ⟨_, _, ⟨rfl, rfl⟩, c, _, ⟨hc, rfl⟩, rfl, rfl⟩ := h
    exact ⟨c, hc, rfl, rfl⟩
  · rintro ⟨c, hc, rfl, rfl⟩
    exact keptEscape_cons hc rest

/-- A part of a string argument with plain quotes. -/
def quotedPart : Parser (List Char) :=
  keptEscape (fun _ => true)
    <|> (do let c ← satisfy fun c => c != '"' && c != '\\' && c != '\n'; pure [c])

instance consumes_quotedPart : Consumes quotedPart := by
  unfold quotedPart
  infer_instance

theorem readsBody_quotedPart : ReadsBody quotedPart fun _ => true where
  plain c s hc := by
    have hpart : quotedPart (c :: s) = .ok [c] s := by
      refine (orElse_of_refuses (refuses_keptEscape (Text.ne_of_class hc rfl) _ s) _).trans ?_
      have htest : (c != '"' && c != '\\' && c != '\n') = true := by
        rw [Bool.and_comm (c != '"')]
        exact hc
      exact bind_pure_of_ok (satisfy_cons htest s) _
    rw [joined_of_ok hpart]
    rfl
  escape c s hc := orElse_of_ok (keptEscape_cons hc s) _
  sound s cs rest h := by
    obtain h | ⟨-, h⟩ := orElse_eq_ok.1 h
    · obtain ⟨c, hc, rfl, rfl⟩ := keptEscape_eq_ok.1 h
      exact ⟨.escape hc .nil, rfl⟩
    · simp only [bind_eq_ok, satisfy_eq_ok, pure_eq_ok] at h
      obtain ⟨c, _, ⟨hc, rfl⟩, rfl, rfl⟩ := h
      rw [Bool.and_comm (c != '"')] at hc
      exact ⟨.plain hc .nil, rfl⟩

/-- A part of a string argument with escaped quotes. -/
def escapedPart : Parser (List Char) :=
  keptEscape (fun c => c != '"' && c != '\n')
    <|> takeSome fun c => c != '\\' && c != '"' && c != '\n'

instance consumes_escapedPart : Consumes escapedPart := by
  unfold escapedPart
  infer_instance

theorem escapedPart_run {c : Char} (hc : isEscapedPlain c = true) (s : List Char) :
    escapedPart (c :: s) = .ok (c :: s.takeWhile isEscapedPlain) (s.dropWhile isEscapedPlain) := by
  have hrun : takeSome isEscapedPlain (c :: s) =
      .ok (c :: s.takeWhile isEscapedPlain) (s.dropWhile isEscapedPlain) := by
    simp [takeSome, hc]
  exact (orElse_of_refuses (refuses_keptEscape (Text.ne_of_class hc rfl) _ s) _).trans hrun

/-- A run of characters may be read one at a time. -/
theorem joined_escapedPart_cons {c : Char} (hc : isEscapedPlain c = true) (s : List Char) :
    joined escapedPart (c :: s) = (joined escapedPart s).map (c :: ·) := by
  rw [joined_of_ok (escapedPart_run hc s)]
  cases s with
  | nil => rfl
  | cons d s =>
    by_cases hd : isEscapedPlain d = true
    · rw [List.takeWhile_cons_of_pos hd, List.dropWhile_cons_of_pos hd,
        joined_of_ok (escapedPart_run hd s), Reply.map_map]
      rfl
    · rw [List.takeWhile_cons_of_neg hd, List.dropWhile_cons_of_neg hd]
      rfl

/-- The characters that a string argument with escaped quotes holds behind a backslash. -/
def isInEscaped (c : Char) : Bool := c != '"' && c != '\n'

theorem readsBody_escapedPart : ReadsBody escapedPart isInEscaped where
  plain c s hc := joined_escapedPart_cons hc s
  escape c s hc := orElse_of_ok (keptEscape_cons hc s) _
  sound s cs rest h := by
    obtain h | ⟨-, h⟩ := orElse_eq_ok.1 h
    · obtain ⟨c, hc, rfl, rfl⟩ := keptEscape_eq_ok.1 h
      exact ⟨.escape hc .nil, rfl⟩
    · obtain ⟨-, rfl, hcs, -⟩ := takeSome_eq_ok.1 h
      exact ⟨.of_plain hcs, rfl⟩

theorem refuses_quotedPart (s : List Char) : Refuses quotedPart ('"' :: s) :=
  (refuses_keptEscape (by decide) _ s).orElse ((refuses_satisfy (stops_cons.2 rfl)).bind _)

theorem refuses_escapedPart (s : List Char) : Refuses escapedPart ('\\' :: '"' :: s) := by
  have hkept : Refuses (keptEscape (fun c => c != '"' && c != '\n')) ('\\' :: '"' :: s) :=
    refuses_bind_of_ok (char_cons '\\' _) ((refuses_satisfy (stops_cons.2 rfl)).bind _)
  exact hkept.orElse (refuses_takeSome (stops_cons.2 rfl))

theorem quotedInSpan_eq_ok {s cs rest : List Char} : quotedInSpan s = .ok cs rest ↔
    ∃ body, Body (fun _ => true) body ∧ s = '"' :: (body ++ '"' :: rest) ∧
      cs = '"' :: (body ++ ['"']) := by
  constructor
  · intro h
    unfold quotedInSpan at h
    simp only [bind_eq_ok, char_eq_ok, pure_eq_ok] at h
    obtain ⟨_, _, ⟨rfl, rfl⟩, parts, _, hmany, _, _, ⟨rfl, rfl⟩, rfl, rfl⟩ := h
    obtain ⟨hbody, rfl⟩ := readsBody_quotedPart.of_joined (Reply.map_eq_ok.2 ⟨parts, rfl, hmany⟩)
    exact ⟨_, hbody, rfl, rfl⟩
  · rintro ⟨body, hbody, rfl, rfl⟩
    obtain ⟨parts, rfl, hmany⟩ :=
      Reply.map_eq_ok.1 (readsBody_quotedPart.joined_append hbody (refuses_quotedPart rest))
    unfold quotedInSpan
    rw [bind_of_ok (char_cons '"' _)]
    refine (bind_of_ok hmany _).trans ?_
    rw [bind_of_ok (char_cons '"' rest)]
    rfl

theorem escapedQuotedInSpan_eq_ok {s cs rest : List Char} : escapedQuotedInSpan s = .ok cs rest ↔
    ∃ body, Body isInEscaped body ∧ s = '\\' :: '"' :: (body ++ '\\' :: '"' :: rest) ∧
      cs = '"' :: (body ++ ['"']) := by
  constructor
  · intro h
    unfold escapedQuotedInSpan at h
    simp only [bind_eq_ok, literal_eq_ok, pure_eq_ok] at h
    obtain ⟨_, _, rfl, parts, _, hmany, _, _, rfl, rfl, rfl⟩ := h
    obtain ⟨hbody, rfl⟩ := readsBody_escapedPart.of_joined (Reply.map_eq_ok.2 ⟨parts, rfl, hmany⟩)
    exact ⟨_, hbody, rfl, rfl⟩
  · rintro ⟨body, hbody, rfl, rfl⟩
    obtain ⟨parts, rfl, hmany⟩ :=
      Reply.map_eq_ok.1 (readsBody_escapedPart.joined_append hbody (refuses_escapedPart rest))
    unfold escapedQuotedInSpan
    refine (bind_of_ok (literal_append escapedQuote _) _).trans ?_
    refine (bind_of_ok hmany _).trans ?_
    exact bind_of_ok (literal_append escapedQuote rest) _

theorem spanPart_quoted {cs : List Char} (h : Body (fun _ => true) cs) (rest : List Char) :
    spanPart span ('"' :: (cs ++ '"' :: rest)) = .ok ('"' :: (cs ++ ['"'])) rest := by
  unfold spanPart
  rw [orElse_of_refuses (refuses_span (not_cons_prefix_cons (by decide) ['{'] _))]
  exact orElse_of_ok (quotedInSpan_eq_ok.2 ⟨cs, h, rfl, rfl⟩) _

theorem spanPart_escapedQuoted {cs : List Char} (h : Body isInEscaped cs) (rest : List Char) :
    spanPart span ('\\' :: '"' :: (cs ++ '\\' :: '"' :: rest)) = .ok ('"' :: (cs ++ ['"'])) rest := by
  unfold spanPart
  rw [orElse_of_refuses (refuses_span (not_cons_prefix_cons (by decide) ['{'] _)),
    orElse_of_refuses (refuses_quotedInSpan (by decide) _)]
  exact orElse_of_ok (escapedQuotedInSpan_eq_ok.2 ⟨cs, h, rfl, rfl⟩) _

end Phrasebook.Resource
