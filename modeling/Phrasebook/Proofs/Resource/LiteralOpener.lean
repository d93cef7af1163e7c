import Phrasebook.Proofs.Resource.Lookahead
import Phrasebook.Proofs.Resource.Stop
import Phrasebook.Proofs.Resource.Strings
import Phrasebook.Proofs.Template.Concat
/-!
# Literal openers — a backslash or another dollar sign in front of `${`

A resource string has two ways to write a literal `${`: `\${` is decoded to the escape `$${` of the
grammar of templates, and `$${` is that escape already.  Behind the first the string goes on as it
was.  Behind the second the scanner finds an opener, and if a brace closes it, it keeps what stands
between them as a span, escapes and all, which for the grammar of templates is none.  So the two ways
differ exactly by escapes that are left undecoded (`literal_opener`).
-/
namespace Phrasebook.Resource

open Phrasebook.Parser
open Phrasebook.Template (opener escapedOpener escapeOpeners nodesBehind Lone)

/-! ## Pieces -/

/-- Outside of spans a piece is an escape or a character. -/
theorem stringPiece_sound {s rest cs : List Char} (h : stringPiece s = .ok cs rest) :
    opener <+: s ∨ '\\' :: opener <+: s ∨
      (∃ e c, Text.unescape e = some c ∧ s = '\\' :: e :: rest) ∨
      ∃ c, c ≠ '"' ∧ c ≠ '\\' ∧ c ≠ '\n' ∧ s = c :: rest := by
  unfold stringPiece escapedDollar at h
  simp only [orElse_eq_ok, bind_eq_ok, literal_eq_ok, peek_eq_ok, char_eq_ok, pick_eq_ok,
    satisfy_eq_ok, pure_eq_ok, Bool.and_eq_true, bne_iff_ne] at h
  obtain hspan | ⟨-, ⟨_, _, rfl, _, _, ⟨⟨_, _, _, rfl⟩, rfl⟩, _, rfl⟩ | ⟨-, ⟨_, _, ⟨_, rfl⟩, c, _,
    ⟨e, he, rfl⟩, _, rfl⟩ | ⟨-, c, _, ⟨⟨⟨h1, h2⟩, h3⟩, rfl⟩, _, rfl⟩⟩⟩ := h
  · obtain ⟨t, v, rfl, -, -⟩ := span_eq_ok.1 hspan
    exact .inl (List.prefix_append opener t)
  · exact .inr (.inl (List.prefix_append ('\\' :: opener) _))
  · exact .inr (.inr (.inl ⟨e, c, he, rfl⟩))
  · exact .inr (.inr (.inr ⟨c, h1, h2, h3, rfl⟩))

/-! ## Text without openers -/

theorem not_opener_tail {c : Char} {s : List Char} (h : ¬ opener <:+: c :: s) : ¬ opener <:+: s :=
  fun hs => h (List.infix_cons_iff.2 (.inr hs))

theorem not_brace_tail {s : List Char} (h : ¬ opener <:+: '$' :: s) : ¬ ['{'] <+: s :=
  fun hs => h (Template.opener_prefix_dollar.2 hs).isInfix

theorem opener_infix_cons {c : Char} (hdollar : c ≠ '$') (s : List Char) :
    opener <:+: c :: s ↔ opener <:+: s := by
  rw [List.infix_cons_iff]
  exact or_iff_right (Template.not_opener_prefix_cons hdollar s)

/-- An opener stands on one side of a character that is not part of it. -/
theorem opener_infix_append {c : Char} (hdollar : c ≠ '$') (hbrace : c ≠ '{') (s t : List Char) :
    opener <:+: s ++ c :: t ↔ opener <:+: s ∨ opener <:+: t := by
  induction s with
  | nil =>
    rw [List.nil_append, List.infix_cons_iff]
    refine or_congr ⟨fun h => ?_, fun h => ?_⟩ Iff.rfl
    · exact absurd h (Template.not_opener_prefix_cons hdollar t)
    · cases List.infix_nil.1 h
  | cons d s ih =>
    have hprefix : opener <+: d :: (s ++ c :: t) ↔ opener <+: d :: s := by
      cases s with
      | nil => simp [opener, hbrace.symm]
      | cons e s => simp [opener]
    rw [List.cons_append, List.infix_cons_iff, hprefix, ih, List.infix_cons_iff, or_assoc]

theorem escapeOpeners_of_not_opener : ∀ {s : List Char}, ¬ opener <:+: s → escapeOpeners s = s
  | [], _ => rfl
  | c :: s, h => by
    have hprefix : ¬ opener <+: c :: s := fun hs => h hs.isInfix
    rw [Template.escapeOpeners_cons hprefix, escapeOpeners_of_not_opener (not_opener_tail h)]

/-- Neither an escape nor an opener goes on in this text. -/
def Separate (k : List Char) : Prop := ∀ c ∈ k.head?, Text.unescape c = none ∧ c ≠ '{'

theorem Separate.of_brace {k q : List Char} (hk : Separate k) (h : ['{'] <+: q ++ k) :
    ['{'] <+: q := by
  cases q with
  | nil =>
    obtain ⟨t, rfl⟩ := h
    exact absurd rfl (hk '{' rfl).2
  | cons d q =>
    rw [(List.cons_prefix_cons.1 h).1]
    exact List.prefix_append [d] q

theorem Separate.of_opener {k q : List Char} (hk : Separate k) (h : opener <+: q ++ k) :
    opener <+: q := by
  cases q with
  | nil =>
    obtain ⟨t, rfl⟩ := h
    cases (hk '$' rfl).1
  | cons d q =>
    obtain ⟨rfl, hbrace⟩ := List.cons_prefix_cons.1 h
    exact Template.opener_prefix_dollar.2 (hk.of_brace hbrace)

/-- Text without openers is read as it is spelled, if all of it is read. -/
theorem spelled_of_joined {k rest : List Char} (hk : Separate k) (hrest : rest.length ≤ k.length) :
    ∀ {q cs : List Char}, ¬ opener <:+: q → joined stringPiece (q ++ k) = .ok cs rest →
      ∃ s, Spelled s q
  | [], _, _, _ => ⟨[], .nil⟩
  | c :: q, cs, hopen, h => by
    obtain ⟨-, -, heq⟩ | ⟨ds, mid, es, hpiece, hmid, -⟩ := joined_eq_ok.1 h
    · have hlen := congrArg List.length heq
      rw [List.length_append, List.length_cons] at hlen
      omega
    · obtain hspan | hescaped | ⟨e, d, he, heq⟩ | ⟨d, h1, h2, h3, heq⟩ := stringPiece_sound hpiece
      · exact absurd (hk.of_opener hspan).isInfix hopen
      · obtain ⟨rfl, htail⟩ := List.cons_prefix_cons.1 hescaped
        exact absurd (hk.of_opener htail).isInfix (not_opener_tail hopen)
      · obtain ⟨rfl, htail⟩ := List.cons.inj heq
        cases q with
        | nil =>
          change k = e :: mid at htail
          subst htail
          rw [(hk e rfl).1] at he
          cases he
        | cons e' q =>
          obtain ⟨rfl, rfl⟩ := List.cons.inj htail
          obtain ⟨s, hs⟩ := spelled_of_joined hk hrest (not_opener_tail (not_opener_tail hopen)) hmid
          exact ⟨d :: s, .escape he hs⟩
      · obtain ⟨rfl, rfl⟩ := List.cons.inj heq
        obtain ⟨s, hs⟩ := spelled_of_joined hk hrest (not_opener_tail hopen) hmid
        refine ⟨c :: s, .plain h1 h2 h3 (fun hc hbrace => ?_) hs⟩
        subst hc
        exact not_brace_tail hopen (hs.brace.2 hbrace)

/-! ## Decoded and kept -/

/-- The first text is the second with its escapes decoded, of which there are some or none. -/
def Decodes (s v : List Char) : Prop :=
  (s = v ∧ '\\' ∉ v) ∨ s.length < v.length ∧ '\\' ∈ v

theorem Decodes.eq_iff {s v : List Char} (h : Decodes s v) : s = v ↔ '\\' ∉ v := by
  rcases h with ⟨heq, hslash⟩ | ⟨hlen, hslash⟩
  · exact iff_of_true heq hslash
  · exact iff_of_false (fun heq => by rw [heq] at hlen; omega) (not_not_intro hslash)

theorem decodes_nil : Decodes [] [] := .inl ⟨rfl, List.not_mem_nil⟩

theorem Decodes.cons {s v : List Char} (h : Decodes s v) {c : Char} (hc : c ≠ '\\') :
    Decodes (c :: s) (c :: v) := by
  rcases h with ⟨rfl, hslash⟩ | ⟨hlen, hslash⟩
  · refine .inl ⟨rfl, fun hmem => ?_⟩
    rcases List.mem_cons.1 hmem with heq | hmem
    · exact hc heq.symm
    · exact hslash hmem
  · exact .inr ⟨Nat.succ_lt_succ hlen, List.mem_cons_of_mem c hslash⟩

theorem Decodes.escape {s v : List Char} (h : Decodes s v) (c e : Char) :
    Decodes (c :: s) ('\\' :: e :: v) := by
  have hlen : s.length ≤ v.length := by
    rcases h with ⟨rfl, -⟩ | ⟨hlen, -⟩
    · exact Nat.le_refl _
    · exact Nat.le_of_lt hlen
  refine .inr ⟨?_, List.mem_cons_self⟩
  simp only [List.length_cons]
  omega

theorem Spelled.of_escape {s cs : List Char} {e : Char} (h : Spelled s ('\\' :: e :: cs)) :
    ∃ c t, s = c :: t ∧ Text.unescape e = some c ∧ Spelled t cs := by
  cases h with
  | plain _ hslash => exact absurd rfl hslash
  | escape he htail => exact ⟨_, _, rfl, he, htail⟩

theorem Spelled.of_cons {s cs : List Char} {c : Char} (hc : c ≠ '\\') (h : Spelled s (c :: cs)) :
    ∃ t, s = c :: t ∧ Spelled t cs ∧ c ≠ '"' ∧ (c = '$' → ¬ ['{'] <+: t) := by
  cases h with
  | plain hquote _ _ hbrace htail => exact ⟨_, rfl, htail, hquote, hbrace⟩
  | escape => exact absurd rfl hc

/-- The body of a string argument, and what a string makes of it outside of spans. -/
theorem Body.decodes {test : Char → Bool} {body q : List Char} (hbody : Body test body) :
    ∀ {s : List Char}, Spelled s (body ++ q) → ∃ a t, s = a ++ t ∧ Spelled t q ∧
      ∀ {t' v : List Char}, Decodes t' v → Decodes (a ++ t') (body ++ v) := by
  induction hbody with
  | nil => exact fun {s} hs => ⟨[], s, rfl, hs, id⟩
  | @plain c body hc _ ih =>
    intro s hs
    have hslash : c ≠ '\\' := Text.ne_of_class hc rfl
    obtain ⟨s, rfl, htail, -, -⟩ := hs.of_cons hslash
    obtain ⟨a, t, rfl, ht, hdecodes⟩ := ih htail
    exact ⟨c :: a, t, rfl, ht, fun h => (hdecodes h).cons hslash⟩
  | @escape e body _ _ ih =>
    intro s hs
    obtain ⟨c, s, rfl, -, htail⟩ := hs.of_escape
    obtain ⟨a, t, rfl, ht, hdecodes⟩ := ih htail
    exact ⟨c :: a, t, rfl, ht, fun h => (hdecodes h).escape c e⟩

namespace Parts

variable {k p v : List Char}

/-- The same characters as text and as the parts of a span: the escapes that the text decodes are
those that the span keeps. -/
theorem decodes (h : Parts k p v) : ∀ {s : List Char}, Spelled s p → Decodes s v := by
  induction h with
  | nil =>
    intro s hs
    rw [hs.eq_nil]
    exact decodes_nil
  | nested =>
    intro s hs
    obtain ⟨t, rfl, htail, -, hbrace⟩ := hs.of_cons (by decide)
    exact absurd (htail.brace.1 (List.prefix_append ['{'] _)) (hbrace rfl)
  | quoted =>
    intro s hs
    obtain ⟨t, rfl, -, hquote, -⟩ := hs.of_cons (by decide)
    exact absurd rfl hquote
  | escapedQuoted hbody _ ih =>
    intro s hs
    obtain ⟨c, s, rfl, ⟨⟩, htail⟩ := hs.of_escape
    obtain ⟨a, t, rfl, ht, hdecodes⟩ := hbody.decodes htail
    obtain ⟨c, t, rfl, ⟨⟩, hlast⟩ := ht.of_escape
    exact (hdecodes ((ih hlast).cons (by decide))).cons (by decide)
  | @escape _ _ _ e _ _ _ ih =>
    intro s hs
    obtain ⟨c, t, rfl, -, htail⟩ := hs.of_escape
    exact (ih htail).escape c e
  | plain hc _ ih =>
    intro s hs
    have hslash := Text.ne_of_class (d := '\\') hc rfl
    obtain ⟨t, rfl, htail, -, -⟩ := hs.of_cons hslash
    exact (ih htail).cons hslash

theorem not_brace_value (h : Parts k p v) : ¬ ['{'] <+: v := by
  cases h with
  | nil => decide
  | nested | quoted | escapedQuoted | escape => exact not_cons_prefix_cons (by decide) [] _
  | plain hc _ => exact not_cons_prefix_cons (Text.ne_of_class hc rfl) [] _

/-- A character, and what a span keeps behind it. -/
theorem opener_of_cons_value (h : Parts k p v) {c : Char} (ih : opener <:+: v → opener <:+: p)
    (hv : opener <:+: c :: v) : opener <:+: c :: p := by
  rcases List.infix_cons_iff.1 hv with hprefix | htail
  · exact absurd (List.cons_prefix_cons.1 hprefix).2 h.not_brace_value
  · exact List.infix_cons_iff.2 (.inr (ih htail))

/-- The value of a span has no openers but those of its text. -/
theorem opener_of_value (h : Parts k p v) (hv : opener <:+: v) : opener <:+: p := by
  induction h with
  | nil => exact hv
  | nested => exact (List.prefix_append opener _).isInfix
  | quoted _ _ ih =>
    rw [opener_infix_cons (by decide), opener_infix_append (by decide) (by decide)] at hv ⊢
    exact hv.imp_right ih
  | escapedQuoted _ _ ih =>
    rw [opener_infix_cons (by decide), opener_infix_append (by decide) (by decide)] at hv
    rw [opener_infix_cons (by decide), opener_infix_cons (by decide),
      opener_infix_append (by decide) (by decide), opener_infix_cons (by decide)]
    exact hv.imp_right ih
  | escape _ _ h ih =>
    rw [opener_infix_cons (by decide)] at hv ⊢
    exact h.opener_of_cons_value ih hv
  | plain _ h ih => exact h.opener_of_cons_value ih hv

end Parts

/-! ## Text without escapes -/

/-- Text in front of `k` that has no backslash outside of the spans in it. -/
inductive Unescaped (k : List Char) : List Char → Prop
  | nil : Unescaped k []
  | char {c : Char} {p : List Char} : c ≠ '\\' → ¬ opener <+: c :: (p ++ k) → Unescaped k p →
      Unescaped k (c :: p)
  | span {s p w : List Char} : span (s ++ (p ++ k)) = .ok w (p ++ k) → Unescaped k p →
      Unescaped k (s ++ p)

/-- Where neither a span nor an escape nor a string argument begins, a part is a character. -/
theorem spanPart_char {c : Char} {s mid cs : List Char} (hslash : c ≠ '\\') (hquote : c ≠ '"')
    (hopen : ¬ opener <+: c :: s) (h : spanPart span (c :: s) = .ok cs mid) : cs = [c] ∧ mid = s := by
  unfold spanPart at h
  rw [orElse_of_refuses (refuses_span hopen), orElse_of_refuses (refuses_quotedInSpan hquote s),
    orElse_of_refuses (refuses_escapedQuotedInSpan hslash s),
    orElse_of_refuses (refuses_keptEscape hslash _ s)] at h
  simp only [bind_eq_ok, satisfy_eq_ok, pure_eq_ok] at h
  obtain ⟨_, _, ⟨-, heq⟩, rfl, rfl⟩ := h
  obtain ⟨rfl, rfl⟩ := List.cons.inj heq
  exact ⟨rfl, rfl⟩

/-- The same for a string. -/
theorem stringPiece_char {c : Char} {s mid cs : List Char} (hslash : c ≠ '\\')
    (hopen : ¬ opener <+: c :: s) (h : stringPiece (c :: s) = .ok cs mid) :
    cs = [c] ∧ mid = s ∧ c ≠ '"' := by
  have hescaped : ¬ ['\\', '$', '{'] <+: c :: s := not_cons_prefix_cons hslash _ s
  unfold stringPiece at h
  rw [orElse_of_refuses (refuses_span hopen), orElse_of_refuses (refuses_escapedDollar hescaped),
    orElse_of_refuses ((refuses_head hslash s).bind _)] at h
  simp only [bind_eq_ok, satisfy_eq_ok, pure_eq_ok, Bool.and_eq_true, bne_iff_ne] at h
  obtain ⟨_, _, ⟨⟨⟨hquote, -⟩, -⟩, heq⟩, rfl, rfl⟩ := h
  obtain ⟨rfl, rfl⟩ := List.cons.inj heq
  exact ⟨rfl, rfl, hquote⟩

/-- A string that reads all of a span's text reads it as the span does. -/
theorem Unescaped.joined_stringPiece {k p rest : List Char} (h : Unescaped ('}' :: k) p)
    (hrest : rest.length ≤ k.length) : ∀ {v cs : List Char},
      joined (spanPart Resource.span) (p ++ '}' :: k) = .ok v ('}' :: k) →
      joined stringPiece (p ++ '}' :: k) = .ok cs rest →
      ∃ ds, joined stringPiece ('}' :: k) = .ok ds rest ∧ cs = v ++ ds := by
  induction h with
  | nil =>
    intro v cs hv hcs
    rw [List.nil_append, joined_of_refuses (refuses_spanPart_close k)] at hv
    cases hv
    exact ⟨cs, hcs, rfl⟩
  | @char c p hslash hopen _ ih =>
    intro v cs hv hcs
    obtain ⟨-, -, heq⟩ | ⟨ds, mid, es, hpiece, hes, rfl⟩ := joined_eq_ok.1 hcs
    · have hlen := congrArg List.length heq
      simp only [List.length_append, List.length_cons] at hlen
      omega
    obtain ⟨rfl, rfl, hquote⟩ := stringPiece_char hslash hopen hpiece
    obtain ⟨-, -, heq⟩ | ⟨ds, mid, w, hpart, hw, rfl⟩ := joined_eq_ok.1 hv
    · have hlen := congrArg List.length heq
      simp only [List.length_append, List.length_cons] at hlen
      omega
    obtain ⟨rfl, rfl⟩ := spanPart_char hslash hquote hopen hpart
    obtain ⟨ds, hds, rfl⟩ := ih hw hes
    exact ⟨ds, hds, rfl⟩
  | @span s p w hspan _ ih =>
    intro v cs hv hcs
    have hpart : spanPart Resource.span (s ++ (p ++ '}' :: k)) = .ok w (p ++ '}' :: k) :=
      orElse_of_ok hspan _
    rw [List.append_assoc, joined_of_ok hpart, Reply.map_eq_ok] at hv
    rw [List.append_assoc, joined_of_ok (stringPiece_span hspan), Reply.map_eq_ok] at hcs
    obtain ⟨v, rfl, hv⟩ := hv
    obtain ⟨es, rfl, hes⟩ := hcs
    obtain ⟨ds, hds, rfl⟩ := ih hv hes
    exact ⟨ds, hds, (List.append_assoc w v ds).symm⟩

/-! ## Two ways to write an opener -/

theorem not_opener_of_not_mem {s : List Char} (h : '$' ∉ s) : ¬ opener <:+: s :=
  fun hs => h (hs.subset List.mem_cons_self)

theorem Spelled.not_mem_dollar {s cs : List Char} (h : Spelled s cs) (hcs : '$' ∉ cs) : '$' ∉ s := by
  induction h with
  | nil => exact hcs
  | plain _ _ _ _ _ ih =>
    rw [List.mem_cons, not_or] at hcs ⊢
    exact ⟨hcs.1, ih hcs.2⟩
  | escape he _ ih =>
    rw [List.mem_cons, List.mem_cons, not_or, not_or] at hcs
    rw [List.mem_cons, not_or]
    refine ⟨?_, ih hcs.2.2⟩
    rintro rfl
    exact hcs.2.1 (unescape_eq_dollar he).symm

/-- Text without a dollar sign is read alike in front of every text. -/
theorem exists_joined_append {A : List Char} {pieces : List (List Char)}
    (hA : many stringPiece A = .ok pieces []) (hdollar : '$' ∉ A) :
    ∃ a, '$' ∉ a ∧
      ∀ s, joined stringPiece (A ++ s) = (joined stringPiece s).map (a ++ ·) := by
  have hall : joined stringPiece (A ++ []) = .ok pieces.flatten [] := by
    rw [List.append_nil]
    exact Reply.map_eq_ok.2 ⟨pieces, rfl, hA⟩
  have hend : Separate [] := nofun
  obtain ⟨a, ha⟩ := spelled_of_joined hend (Nat.le_refl _) (not_opener_of_not_mem hdollar) hall
  have hnot := ha.not_mem_dollar hdollar
  refine ⟨a, hnot, fun s => ?_⟩
  rw [joined_spelled ha (fun hlast => absurd (List.mem_of_getLast? hlast) hnot),
    escapeOpeners_of_not_opener (not_opener_of_not_mem hnot)]

theorem joined_brace {c : Char} (hc : c = '{' ∨ c = '}') (s : List Char) :
    joined stringPiece (c :: s) = (joined stringPiece s).map (c :: ·) := by
  have hpiece : stringPiece (c :: s) = .ok [c] s := by
    rcases hc with rfl | rfl <;>
      exact stringPiece_plain (by decide) (by decide) (by decide) (fun h => by cases h)
  rw [joined_of_ok hpiece]
  rfl

theorem joined_escaped (s : List Char) : joined stringPiece ('\\' :: opener ++ s) =
    (joined stringPiece s).map (escapedOpener ++ ·) := by
  have hpiece : stringPiece ('\\' :: opener ++ s) = .ok ['$', '$'] ('{' :: s) :=
    stringPiece_escapedDollar (List.prefix_append ['{'] s)
  rw [joined_of_ok hpiece, joined_brace (.inl rfl), Reply.map_map]
  rfl

theorem joined_doubled (s : List Char) : joined stringPiece (escapedOpener ++ s) =
    (joined stringPiece (opener ++ s)).map ('$' :: ·) := by
  have hpiece : stringPiece (escapedOpener ++ s) = .ok ['$'] (opener ++ s) :=
    stringPiece_plain (by decide) (by decide) (by decide) fun _ =>
      not_cons_prefix_cons (by decide) [] _
  rw [joined_of_ok hpiece]
  rfl

theorem joined_opener_of_refuses {s : List Char} (h : Refuses span (opener ++ s)) :
    joined stringPiece (opener ++ s) = (joined stringPiece s).map (opener ++ ·) := by
  have hpiece : stringPiece (opener ++ s) = .ok ['$'] ('{' :: s) :=
    stringPiece_of_refuses_span (by decide) (by decide) (by decide) h
  rw [joined_of_ok hpiece, joined_brace (.inl rfl), Reply.map_map]
  rfl

namespace Parts

variable {k p v rest cs ds : List Char}

/-- Without a backslash outside of its spans, a string makes of a span what the span is. -/
theorem value_of_unescaped (h : Parts ('}' :: k) p v) (hp : Unescaped ('}' :: k) p)
    (hcs : joined stringPiece (p ++ '}' :: k) = .ok cs rest)
    (hds : joined stringPiece k = .ok ds rest) : cs = v ++ '}' :: ds := by
  obtain ⟨es, hes, rfl⟩ :=
    hp.joined_stringPiece (suffix_of_joined hds).length_le h.joined_append hcs
  rw [joined_brace (.inr rfl), hds, Reply.map_ok] at hes
  cases hes
  rfl

/-- Without an opener, a string decodes what a span keeps. -/
theorem exists_decodes (h : Parts ('}' :: k) p v) (hopen : ¬ opener <:+: p)
    (hcs : joined stringPiece (p ++ '}' :: k) = .ok cs rest)
    (hds : joined stringPiece k = .ok ds rest) :
    ∃ s, Decodes s v ∧ cs = escapeOpeners s ++ '}' :: ds := by
  have hclose : Separate ('}' :: k) := by
    rintro c ⟨⟩
    exact ⟨rfl, by decide⟩
  have hlen : rest.length ≤ ('}' :: k).length := Nat.le_succ_of_le (suffix_of_joined hds).length_le
  obtain ⟨s, hs⟩ := spelled_of_joined hclose hlen hopen hcs
  rw [joined_spelled hs fun _ => not_cons_prefix_cons (by decide) [] k, joined_brace (.inr rfl), hds,
    Reply.map_ok, Reply.map_ok] at hcs
  cases hcs
  exact ⟨s, h.decodes hs, rfl⟩

end Parts

/-! ## Compiling -/

/-- Behind an escaped opener, text without openers of its own is held whole. -/
theorem parse_literal_opener {a : List Char} (ha : '$' ∉ a) (s d : List Char) (e : Expression) :
    Expression.parse (String.ofList (a ++ (escapedOpener ++ (escapeOpeners s ++ '}' :: d)))) = .ok e ↔
      nodesBehind (a ++ opener ++ s).reverse ('}' :: d) = .ok e.nodes [] := by
  have hclose : Lone ('}' :: d) :=
    ⟨not_cons_prefix_cons (by decide) [] d, Template.not_opener_prefix_cons (by decide) d⟩
  have hfront : ∀ t, nodesBehind [] (a ++ t) = nodesBehind a.reverse t := by
    intro t
    have hread := Template.nodesBehind_escapeOpeners a [] t
      fun hlast => absurd (List.mem_of_getLast? hlast) ha
    rwa [escapeOpeners_of_not_opener (not_opener_of_not_mem ha), List.append_nil] at hread
  have hheld : (a ++ opener ++ s).reverse = s.reverse ++ '{' :: '$' :: a.reverse := by simp [opener]
  rw [Template.parse_eq_ok, String.toList_ofList, hfront, hheld]
  show nodesBehind _ ('$' :: '$' :: '{' :: (escapeOpeners s ++ '}' :: d)) = _ ↔ _
  rw [Template.nodesBehind_escapedOpener,
    Template.nodesBehind_escapeOpeners _ _ _ fun _ => hclose]

/-- Two texts that differ behind an escaped opener compile alike only if both fail. -/
theorem parse_literal_opener_iff {a s v : List Char} (ha : '$' ∉ a) (hv : ¬ opener <:+: v)
    (d : List Char) :
    (∀ e, Expression.parse (String.ofList (a ++ (escapedOpener ++ (escapeOpeners s ++ '}' :: d)))) =
        .ok e ↔ Expression.parse (String.ofList (a ++ (escapedOpener ++ (v ++ '}' :: d)))) = .ok e) ↔
      s = v ∨ ∀ e, Expression.parse
        (String.ofList (a ++ (escapedOpener ++ (escapeOpeners s ++ '}' :: d)))) ≠ .ok e := by
  have hkept := parse_literal_opener ha v d
  rw [escapeOpeners_of_not_opener hv] at hkept
  simp only [parse_literal_opener ha s d, hkept, ne_eq]
  constructor
  · intro h
    by_cases hcompiles : ∃ e : Expression,
        nodesBehind (a ++ opener ++ s).reverse ('}' :: d) = .ok e.nodes []
    · obtain ⟨e, he⟩ := hcompiles
      have hne : ∀ t, a ++ opener ++ t ≠ [] := fun t => by simp [opener]
      have heq := Template.held_inj (hne s) (hne v) he ((h e).1 he)
      exact .inl (List.append_cancel_left heq)
    · exact .inr fun e he => hcompiles ⟨e, he⟩
  · rintro (rfl | hfails) e
    · rfl
    · refine iff_of_false (hfails e) fun he => ?_
      obtain ⟨nodes, hnodes⟩ := Template.nodesBehind_of_held he (a ++ opener ++ s).reverse
      exact hfails ⟨nodes⟩ hnodes

/-! ## Both ways compared -/

/-- **The two ways to write a literal opener decode to the same text where no span is found behind
the doubled dollar sign, or one without a backslash outside of the spans in it.**  Where one is found
that has no opener in it, they compile to the same exactly if its value has no backslash, or if
neither of them compiles. -/
theorem literal_opener {A B rest t t' : List Char} {pieces : List (List Char)}
    (hA : many stringPiece A = .ok pieces []) (hdollar : '$' ∉ A)
    (ht : quoted ('"' :: (A ++ ('\\' :: opener) ++ B) ++ '"' :: rest) = .ok t rest)
    (ht' : quoted ('"' :: (A ++ escapedOpener ++ B) ++ '"' :: rest) = .ok t' rest) :
    (Refuses span (opener ++ (B ++ '"' :: rest)) ∧ t = t') ∨
    ∃ p r v, B = p ++ '}' :: r ∧
      span (opener ++ (B ++ '"' :: rest)) = .ok (opener ++ (v ++ ['}'])) (r ++ '"' :: rest) ∧
      (Unescaped ('}' :: (r ++ '"' :: rest)) p → t = t') ∧
      (¬ opener <:+: p → ((∀ e, Expression.parse (String.ofList t) = .ok e ↔
          Expression.parse (String.ofList t') = .ok e) ↔
        '\\' ∉ v ∨ ∀ e, Expression.parse (String.ofList t) ≠ .ok e)) := by
  obtain ⟨a, ha, hfront⟩ := exists_joined_append hA hdollar
  have hbehind : ∀ o, A ++ o ++ B ++ '"' :: rest = A ++ (o ++ (B ++ '"' :: rest)) := by
    intro o
    simp only [List.append_assoc]
  rw [List.cons_append, quoted_eq_ok, hbehind, hfront, Reply.map_eq_ok] at ht ht'
  obtain ⟨t, rfl, ht⟩ := ht
  obtain ⟨t', rfl, ht'⟩ := ht'
  rw [joined_escaped, Reply.map_eq_ok] at ht
  rw [joined_doubled, Reply.map_eq_ok] at ht'
  obtain ⟨d, rfl, hd⟩ := ht
  obtain ⟨d', rfl, hd'⟩ := ht'
  cases hspan : span (opener ++ (B ++ '"' :: rest)) with
  | failed f =>
    have hrefuses : Refuses span (opener ++ (B ++ '"' :: rest)) := ⟨f, hspan, Soft.firm_eq hspan⟩
    rw [joined_opener_of_refuses hrefuses, hd, Reply.map_ok] at hd'
    cases hd'
    exact .inl ⟨hrefuses, rfl⟩
  | ok w k =>
    obtain ⟨p, v, heq, rfl, hparts⟩ := span_eq_ok_iff_parts.1 hspan
    rw [joined_of_ok (stringPiece_span hspan), Reply.map_eq_ok] at hd'
    obtain ⟨d₂, rfl, hd₂⟩ := hd'
    -- the string goes on behind the span, so the span ends within the string
    obtain ⟨r, rfl⟩ := suffix_of_joined hd₂
    have hbody : B ++ '"' :: rest = p ++ '}' :: r ++ '"' :: rest := by
      rw [List.append_assoc]
      have hopener : opener ++ (B ++ '"' :: rest) = opener ++ (p ++ '}' :: (r ++ '"' :: rest)) := heq
      exact List.append_cancel_left hopener
    obtain rfl := List.append_cancel_right hbody
    rw [List.append_assoc] at hd
    have hkept : '$' :: ('$' :: '{' :: (v ++ ['}']) ++ d₂) = escapedOpener ++ (v ++ '}' :: d₂) := by
      simp [escapedOpener]
    refine .inr ⟨p, r, v, rfl, rfl, fun hp => ?_, fun hopen => ?_⟩
    · rw [hparts.value_of_unescaped hp hd hd₂, hkept]
    · obtain ⟨s, hs, rfl⟩ := hparts.exists_decodes hopen hd hd₂
      rw [hkept, ← hs.eq_iff]
      exact parse_literal_opener_iff ha (fun hv => hopen (hparts.opener_of_value hv)) d₂

/-- A line feed between the braces is decoded behind a backslash only. -/
theorem literal_opener_line_feed :
    many stringPiece "a".toList = .ok [['a']] [] ∧ '$' ∉ "a".toList ∧
      quoted ('"' :: ("a".toList ++ ('\\' :: opener) ++ "\\n\x7d".toList) ++ ['"']) =
        .ok "a$$\x7b\n\x7d".toList [] ∧
      quoted ('"' :: ("a".toList ++ escapedOpener ++ "\\n\x7d".toList) ++ ['"']) =
        .ok "a$$\x7b\\n\x7d".toList [] ∧
      ¬ ∀ e, Expression.parse (String.ofList "a$$\x7b\n\x7d".toList) = .ok e ↔
        Expression.parse (String.ofList "a$$\x7b\\n\x7d".toList) = .ok e := by
  have hA : many stringPiece "a".toList = .ok [['a']] [] := rfl
  have hdollar : '$' ∉ "a".toList := by decide
  have ht : quoted ('"' :: ("a".toList ++ ('\\' :: opener) ++ "\\n\x7d".toList) ++ ['"']) =
      .ok "a$$\x7b\n\x7d".toList [] := rfl
  have ht' : quoted ('"' :: ("a".toList ++ escapedOpener ++ "\\n\x7d".toList) ++ ['"']) =
      .ok "a$$\x7b\\n\x7d".toList [] := rfl
  have hspan : span (opener ++ ("\\n\x7d".toList ++ ['"'])) = .ok "$\x7b\\n\x7d".toList ['"'] := rfl
  have hparse : Expression.parse (String.ofList "a$$\x7b\n\x7d".toList) =
      .ok ⟨[.text "a$\x7b\n\x7d"]⟩ := rfl
  refine ⟨hA, hdollar, ht, ht', fun halike => ?_⟩
  obtain ⟨hrefuses, -⟩ | ⟨p, r, v, hB, hvalue, -, hiff⟩ := literal_opener hA hdollar ht ht'
  · exact hrefuses.ne_ok _ _ hspan
  · obtain ⟨hv, -⟩ := Reply.ok.inj (hspan.symm.trans hvalue)
    have hopen : '$' ∉ p := fun hmem =>
      absurd (hB ▸ List.mem_append_left ('}' :: r) hmem) (by decide : '$' ∉ "\\n\x7d".toList)
    rcases (hiff (not_opener_of_not_mem hopen)).1 halike with hslash | hfails
    · have hmem : '\\' ∈ opener ++ (v ++ ['}']) := hv ▸ by decide
      exact hslash (by simpa [opener] using hmem)
    · exact hfails _ hparse

/-- `\n` between the braces is a line feed behind one way to write the opener, and two characters
behind the other. -/
theorem literal_openers_differ :
    ¬ ∀ (A B rest t t' : List Char) (pieces : List (List Char)),
      many stringPiece A = .ok pieces [] → '$' ∉ A →
      quoted ('"' :: (A ++ ('\\' :: opener) ++ B) ++ '"' :: rest) = .ok t rest →
      quoted ('"' :: (A ++ escapedOpener ++ B) ++ '"' :: rest) = .ok t' rest →
      ∀ e, Expression.parse (String.ofList t) = .ok e ↔
        Expression.parse (String.ofList t') = .ok e := by
  intro hclaim
  have hA : many stringPiece [] = .ok [] [] := rfl
  have ht : quoted ('"' :: ([] ++ ('\\' :: opener) ++ "\\n\x7d".toList) ++ ['"']) =
      .ok "$$\x7b\n\x7d".toList [] := rfl
  have ht' : quoted ('"' :: ([] ++ escapedOpener ++ "\\n\x7d".toList) ++ ['"']) =
      .ok "$$\x7b\\n\x7d".toList [] := rfl
  have hdecoded : Expression.parse (String.ofList "$$\x7b\n\x7d".toList) =
      .ok ⟨[.text "$\x7b\n\x7d"]⟩ := rfl
  have hkept : Expression.parse (String.ofList "$$\x7b\\n\x7d".toList) =
      .ok ⟨[.text "$\x7b\\n\x7d"]⟩ := rfl
  have halike := (hclaim [] _ [] _ _ [] hA (by decide) ht ht' _).1 hdecoded
  rw [hkept, Except.ok.injEq, Expression.mk.injEq, List.cons.injEq, Node.text.injEq] at halike
  exact absurd halike.1 (by decide)

end Phrasebook.Resource
