import Phrasebook.Proofs.Parser.Soft
import Phrasebook.Proofs.Resource.SpanPart
/-!
# What follows a span — when it matters

The scanner looks past a span in one place only: an escaped quote inside it may begin a string
argument whose closing quote stands behind the brace.  If no such quote comes, the first one stands
for itself.  So what a span is read as depends on what follows exactly if its last double quote
stands for itself, and then on whether the text behind it could be the end of a string argument.
-/
namespace Phrasebook.Resource

open Phrasebook.Parser

/-- A string argument with escaped quotes that is open in front of this text ends in it. -/
def EndsQuote (s : List Char) : Prop :=
  ∃ body rest, Body isInEscaped body ∧ s = body ++ '\\' :: '"' :: rest

/-- Is the last double quote of a text behind a backslash? -/
def lastQuote? : List Char → Option Bool
  | []              => none
  | '\\' :: c :: cs => (lastQuote? cs).or (if c = '"' then some true else none)
  | c :: cs         => (lastQuote? cs).or (if c = '"' then some false else none)

/-- The parts of a span that are written `p` are read as `v` in front of the text `k`.  An escaped
quote stands for itself where it cannot begin a string argument. -/
inductive Parts : (k p v : List Char) → Prop
  | nil {k : List Char} : Parts k [] []
  | nested {k p v p' v' : List Char} : Parts ('}' :: (p' ++ k)) p v → Parts k p' v' →
      Parts k ('$' :: '{' :: (p ++ '}' :: p')) ('$' :: '{' :: (v ++ '}' :: v'))
  | quoted {k body p v : List Char} : Body (fun _ => true) body → Parts k p v →
      Parts k ('"' :: (body ++ '"' :: p)) ('"' :: (body ++ '"' :: v))
  | escapedQuoted {k body p v : List Char} : Body isInEscaped body → Parts k p v →
      Parts k ('\\' :: '"' :: (body ++ '\\' :: '"' :: p)) ('"' :: (body ++ '"' :: v))
  | escape {k p v : List Char} {c : Char} : c ≠ '\n' → (c = '"' → ¬ EndsQuote (p ++ k)) →
      Parts k p v → Parts k ('\\' :: c :: p) ('\\' :: c :: v)
  | plain {k p v : List Char} {c : Char} : isSpanPlain c = true → Parts k p v →
      Parts k (c :: p) (c :: v)

/-! ## Bodies of string arguments -/

namespace Body

variable {test : Char → Bool} {cs ds : List Char}

theorem not_mem_quote (h : Body isInEscaped cs) : '"' ∉ cs := by
  induction h with
  | nil => exact List.not_mem_nil
  | plain hc _ ih => simp [ih, (Text.ne_of_class (d := '"') hc rfl).symm]
  | escape hc _ ih => simp [ih, (Text.ne_of_class (d := '"') hc rfl).symm]

theorem of_cons {c : Char} (hc : isEscapedPlain c = true) (h : Body test (c :: cs)) :
    Body test cs := by
  cases h with
  | plain _ h => exact h
  | escape => cases hc

theorem of_escape {c : Char} (h : Body test ('\\' :: c :: cs)) : Body test cs := by
  cases h with
  | plain hc => cases hc
  | escape _ h => exact h

theorem of_append (h : Body test cs) (happend : Body test (cs ++ ds)) : Body test ds := by
  induction h with
  | nil => exact happend
  | plain hc _ ih => exact ih (happend.of_cons hc)
  | escape _ _ ih => exact ih happend.of_escape

/-- A body may be cut where no backslash stands. -/
theorem split : ∀ {cs ds : List Char}, Body test (cs ++ ds) → cs.getLast? ≠ some '\\' →
    Body test cs ∧ Body test ds
  | [], _, h, _ => ⟨.nil, h⟩
  | [c], _, h, hlast => by
    cases h with
    | plain hc h => exact ⟨.plain hc .nil, h⟩
    | escape => exact absurd rfl hlast
  | c :: d :: cs, _, h, hlast => by
    rw [List.getLast?_cons_cons] at hlast
    rw [List.cons_append, List.cons_append] at h
    cases h with
    | plain hc h =>
      obtain ⟨hcs, hds⟩ := @split (d :: cs) _ h hlast
      exact ⟨.plain hc hcs, hds⟩
    | escape hd h =>
      have hlast' : cs.getLast? ≠ some '\\' := by
        cases cs with
        | nil => exact nofun
        | cons e cs => rwa [List.getLast?_cons_cons] at hlast
      obtain ⟨hcs, hds⟩ := split h hlast'
      exact ⟨.escape hd hcs, hds⟩

end Body

namespace EndsQuote

variable {cs s : List Char}

theorem behind (hcs : Body isInEscaped cs) (h : EndsQuote s) : EndsQuote (cs ++ s) := by
  obtain ⟨body, rest, hbody, rfl⟩ := h
  exact ⟨cs ++ body, rest, hcs.append hbody, (List.append_assoc _ _ _).symm⟩

/-- The closing quote stands in a beginning of the text, or behind one that is part of the string
argument. -/
theorem of_append (h : EndsQuote (cs ++ s)) (hlast : cs.getLast? ≠ some '\\') :
    (∀ s', EndsQuote (cs ++ s')) ∨ Body isInEscaped cs ∧ EndsQuote s := by
  obtain ⟨body, rest, hbody, heq⟩ := h
  obtain ⟨as, rfl, rfl⟩ | ⟨t, rfl, ht⟩ := List.append_eq_append_iff.1 heq
  · obtain ⟨hcs, has⟩ := hbody.split hlast
    exact .inr ⟨hcs, as, rest, has, rfl⟩
  · match t, ht, hlast with
    | [], ht, _ => exact .inr ⟨by rwa [List.append_nil], [], rest, .nil, ht.symm⟩
    | [c], ht, hlast =>
      rw [List.singleton_append, List.cons.injEq] at ht
      simp [← ht.1] at hlast
    | c :: d :: t, ht, _ =>
      rw [List.cons_append, List.cons_append, List.cons.injEq, List.cons.injEq] at ht
      obtain ⟨rfl, rfl, -⟩ := ht
      exact .inl fun s' => ⟨body, t ++ s', hbody, by simp⟩

/-- What stands behind a double quote is no part of a string argument that was open before. -/
theorem congr_behind (h : EndsQuote (cs ++ '"' :: s)) (s' : List Char) :
    EndsQuote (cs ++ '"' :: s') := by
  obtain ⟨body, rest, hbody, heq⟩ := h
  have hslash : body ++ '\\' :: '"' :: rest = body ++ ['\\'] ++ '"' :: rest := by simp
  rw [hslash] at heq
  have hquote : '"' ∉ body ++ ['\\'] := by simp [hbody.not_mem_quote]
  obtain ⟨as, has, hs⟩ | ⟨as, rfl, hs⟩ := List.append_eq_append_iff.1 heq
  · cases as with
    | nil =>
      rw [List.append_nil] at has
      exact ⟨body, s', hbody, by simp [← has]⟩
    | cons c as =>
      rw [List.cons_append, List.cons.injEq] at hs
      rw [has, ← hs.1] at hquote
      simp at hquote
  · cases as with
    | nil => exact ⟨body, s', hbody, by simp⟩
    | cons c as =>
      rw [List.cons_append, List.cons.injEq] at hs
      exact ⟨body, as ++ '"' :: s', hbody, by simp [← hs.1]⟩

end EndsQuote

/-! ## Last quotes -/

theorem lastQuote?_plain {c : Char} (hc : c ≠ '\\') (cs : List Char) :
    lastQuote? (c :: cs) = (lastQuote? cs).or (if c = '"' then some false else none) := by
  rw [lastQuote?.eq_3 _ _ fun _ _ h _ => hc h]

theorem lastQuote?_other {c : Char} (hc : c ≠ '\\') (hquote : c ≠ '"') (cs : List Char) :
    lastQuote? (c :: cs) = lastQuote? cs := by
  rw [lastQuote?_plain hc, if_neg hquote, Option.or_none]

theorem Body.lastQuote?_append {test : Char → Bool} {cs : List Char} (h : Body test cs)
    (s : List Char) : lastQuote? (cs ++ s) = (lastQuote? s).or (lastQuote? cs) := by
  induction h with
  | nil => rw [List.nil_append, lastQuote?, Option.or_none]
  | plain hc _ ih =>
    rw [List.cons_append, lastQuote?_plain (Text.ne_of_class hc rfl),
      lastQuote?_plain (Text.ne_of_class hc rfl), ih, Option.or_assoc]
  | escape _ _ ih =>
    rw [List.cons_append, List.cons_append, lastQuote?, lastQuote?, ih, Option.or_assoc]

/-- Behind a whole string argument, its own quotes are not the last. -/
theorem Body.lastQuote?_quoted {test : Char → Bool} {body : List Char} (h : Body test body)
    (s : List Char) : lastQuote? ('"' :: (body ++ '"' :: s)) = (lastQuote? s).or (some false) := by
  rw [lastQuote?_plain (by decide), h.lastQuote?_append, lastQuote?_plain (by decide)]
  cases lastQuote? s <;> simp

namespace Parts

variable {k p v : List Char}

theorem lastQuote?_append (h : Parts k p v) (s : List Char) :
    lastQuote? (v ++ s) = (lastQuote? s).or (lastQuote? v) := by
  induction h generalizing s with
  | nil => rw [List.nil_append, lastQuote?, Option.or_none]
  | nested _ _ ih ih' =>
    simp only [List.cons_append, List.append_assoc, lastQuote?_other (c := '$') (by decide)
      (by decide), lastQuote?_other (c := '{') (by decide) (by decide), ih,
      lastQuote?_other (c := '}') (by decide) (by decide), ih', Option.or_assoc]
  | quoted hbody _ ih | escapedQuoted hbody _ ih =>
    rw [List.cons_append, List.append_assoc, List.cons_append, hbody.lastQuote?_quoted,
      hbody.lastQuote?_quoted, ih, Option.or_assoc]
  | escape _ _ _ ih =>
    rw [List.cons_append, List.cons_append, lastQuote?, lastQuote?, ih, Option.or_assoc]
  | plain hc _ ih =>
    rw [List.cons_append, lastQuote?_plain (Text.ne_of_class hc rfl),
      lastQuote?_plain (Text.ne_of_class hc rfl), ih, Option.or_assoc]

theorem lastQuote?_nested {k' p' v' : List Char} (h : Parts k' p' v') :
    lastQuote? ('$' :: '{' :: (v' ++ '}' :: v)) = (lastQuote? v).or (lastQuote? v') := by
  rw [lastQuote?_other (by decide) (by decide), lastQuote?_other (by decide) (by decide),
    h.lastQuote?_append, lastQuote?_other (by decide) (by decide)]

theorem lastQuote?_eq_none (h : Parts k p v) : lastQuote? v = none ↔ '"' ∉ p := by
  induction h with
  | nil => simp [lastQuote?]
  | nested h _ ih ih' => simp [h.lastQuote?_nested, ih, ih', and_comm]
  | quoted hbody _ ih | escapedQuoted hbody _ ih => simp [hbody.lastQuote?_quoted]
  | @escape k p v c _ _ _ ih =>
    by_cases hc : c = '"'
    · simp [lastQuote?, hc]
    · simp [lastQuote?, hc, ih, Ne.symm hc]
  | plain hc _ ih =>
    have hquote := Text.ne_of_class (d := '"') hc rfl
    simp [lastQuote?_other (Text.ne_of_class hc rfl) hquote, ih, Ne.symm hquote]

/-- Parts without a double quote could stand in a string argument. -/
theorem body_of_not_mem (h : Parts k p v) (hquote : '"' ∉ p) : Body isInEscaped p := by
  induction h with
  | nil => exact .nil
  | nested _ _ ih ih' =>
    simp only [List.mem_cons, List.mem_append, not_or] at hquote
    have hclose : Body isInEscaped ['}'] := .plain rfl .nil
    exact .plain rfl (.plain rfl ((ih hquote.2.2.1).append (hclose.append (ih' hquote.2.2.2.2))))
  | quoted | escapedQuoted => simp at hquote
  | @escape k p v c hc _ _ ih =>
    simp only [List.mem_cons, not_or] at hquote
    refine .escape ?_ (ih hquote.2.2)
    simp [isInEscaped, hc, Ne.symm hquote.2.1]
  | @plain k p v c hc _ ih =>
    simp only [List.mem_cons, not_or] at hquote
    have hne : ∀ d, isSpanPlain d = false → c ≠ d := fun d hd => Text.ne_of_class hc hd
    refine .plain ?_ (ih hquote.2)
    simp [isEscapedPlain, hne '\\' rfl, hne '"' rfl, hne '\n' rfl]

/-- If the last double quote stands for itself, then because no string argument that begins with it
ends in what follows. -/
theorem exists_open (h : Parts k p v) (hlast : lastQuote? v = some true) :
    ∃ q, Body isInEscaped q ∧ ¬ EndsQuote (q ++ k) := by
  induction h with
  | nil => cases hlast
  | @nested k p v p' v' h h' ih ih' =>
    rw [h.lastQuote?_nested] at hlast
    cases hv' : lastQuote? v' with
    | some escaped =>
      rw [hv', Option.some_or] at hlast
      exact ih' (hv'.trans hlast)
    | none =>
      rw [hv', Option.none_or] at hlast
      obtain ⟨q, hq, hopen⟩ := ih hlast
      have hp' : Body isInEscaped p' := h'.body_of_not_mem (h'.lastQuote?_eq_none.1 hv')
      refine ⟨q ++ '}' :: p', hq.append (.plain rfl hp'), ?_⟩
      rwa [List.append_assoc]
  | @quoted k body p v hbody _ ih | @escapedQuoted k body p v hbody _ ih =>
    rw [hbody.lastQuote?_quoted] at hlast
    cases hv : lastQuote? v with
    | some escaped =>
      rw [hv, Option.some_or] at hlast
      exact ih (hv.trans hlast)
    | none => rw [hv] at hlast; cases hlast
  | @escape k p v c _ hopen h ih =>
    rw [lastQuote?] at hlast
    cases hv : lastQuote? v with
    | some escaped =>
      rw [hv, Option.some_or] at hlast
      exact ih (hv.trans hlast)
    | none =>
      rw [hv, Option.none_or] at hlast
      have hc : c = '"' := by simpa using hlast
      exact ⟨p, h.body_of_not_mem (h.lastQuote?_eq_none.1 hv), hopen hc⟩
  | plain hc _ ih =>
    rw [lastQuote?_other (Text.ne_of_class hc rfl) (Text.ne_of_class hc rfl)] at hlast
    exact ih hlast

/-- Parts are read alike in front of another text, unless that ends a string argument which their
last double quote could begin. -/
theorem congr_behind {x r r' : List Char} (h : Parts (x ++ r) p v) (hx : x.getLast? = some '}')
    (hlast : Body isInEscaped x → EndsQuote r' → lastQuote? v ≠ some true) :
    Parts (x ++ r') p v := by
  generalize hk : x ++ r = k at h
  induction h generalizing x with
  | nil => exact .nil
  | @nested k p v p' v' h h' ih ih' =>
    subst hk
    refine .nested ?_ (ih' hx (fun hbody hends hv' => ?_) rfl)
    · have hinner := ih (x := '}' :: (p' ++ x)) ?_ ?_ ?_
      · simpa using hinner
      · simp [List.getLast?_cons, hx]
      · intro hbody hends hv
        cases hbody with
        | plain _ hbody =>
          have hquote : '"' ∉ p' := fun hmem =>
            hbody.not_mem_quote (List.mem_append_left _ hmem)
          refine hlast ((h'.body_of_not_mem hquote).of_append hbody) hends ?_
          rw [h.lastQuote?_nested, h'.lastQuote?_eq_none.2 hquote, Option.none_or, hv]
      · simp
    · refine hlast hbody hends ?_
      rw [h.lastQuote?_nested, hv', Option.some_or]
  | quoted hbody h ih =>
    refine .quoted hbody (ih hx (fun hx' hends hv => hlast hx' hends ?_) hk)
    rw [hbody.lastQuote?_quoted, hv, Option.some_or]
  | escapedQuoted hbody h ih =>
    refine .escapedQuoted hbody (ih hx (fun hx' hends hv => hlast hx' hends ?_) hk)
    rw [hbody.lastQuote?_quoted, hv, Option.some_or]
  | @escape k p v c hc hopen h ih =>
    subst hk
    refine .escape hc (fun hquote hends => ?_) (ih hx (fun hx' hends hv => hlast hx' hends ?_) rfl)
    · rw [← List.append_assoc] at hends
      rcases hends.of_append (by simp [hx]) with h' | ⟨hbody, hends⟩
      · exact hopen hquote (by rw [← List.append_assoc]; exact h' r)
      · have hmem : '"' ∉ p := fun hmem => hbody.not_mem_quote (List.mem_append_left _ hmem)
        refine hlast ((h.body_of_not_mem hmem).of_append hbody) hends ?_
        rw [lastQuote?, h.lastQuote?_eq_none.2 hmem, hquote]
        rfl
    · rw [lastQuote?, hv, Option.some_or]
  | plain hc h ih =>
    refine .plain hc (ih hx (fun hx' hends hv => hlast hx' hends ?_) hk)
    rw [lastQuote?_other (Text.ne_of_class hc rfl) (Text.ne_of_class hc rfl), hv]

end Parts

/-! ## Reading -/

instance soft_quotedInSpan : Soft quotedInSpan := by
  unfold quotedInSpan keptEscape
  infer_instance

instance soft_escapedQuotedInSpan : Soft escapedQuotedInSpan := by
  unfold escapedQuotedInSpan keptEscape
  infer_instance

instance soft_spanStep (span : Parser (List Char)) [Soft span] : Soft (spanStep span) := by
  unfold spanStep spanPart keptEscape
  infer_instance

/-- A span that is not closed is none. -/
instance soft_span : Soft span := soft_fix fun _ _ => inferInstance

theorem refuses_escapedQuotedInSpan_of_open {s : List Char} (h : ¬ EndsQuote s) :
    Refuses escapedQuotedInSpan ('\\' :: '"' :: s) := by
  refine refuses_of_ne_ok fun cs rest hok => h ?_
  obtain ⟨body, hbody, heq, -⟩ := escapedQuotedInSpan_eq_ok.1 hok
  rw [List.cons.injEq, List.cons.injEq] at heq
  exact ⟨body, rest, hbody, heq.2.2⟩

theorem spanPart_escape {c : Char} (hc : c ≠ '\n') {s : List Char}
    (hopen : c = '"' → ¬ EndsQuote s) : spanPart span ('\\' :: c :: s) = .ok ['\\', c] s := by
  have hescaped : Refuses escapedQuotedInSpan ('\\' :: c :: s) := by
    by_cases hquote : c = '"'
    · subst hquote
      exact refuses_escapedQuotedInSpan_of_open (hopen rfl)
    · refine (refuses_literal fun hprefix => hquote ?_).bind _
      rw [escapedQuote, List.cons_prefix_cons, List.cons_prefix_cons] at hprefix
      exact hprefix.2.1.symm
  unfold spanPart
  rw [orElse_of_refuses (refuses_span (not_cons_prefix_cons (by decide) ['{'] _)),
    orElse_of_refuses (refuses_quotedInSpan (by decide) _), orElse_of_refuses hescaped]
  exact orElse_of_ok (keptEscape_cons (by simpa using hc) s) _

namespace Parts

variable {k p v : List Char}

theorem ne_of_head (h : Parts k p v) : ∀ c ∈ p.head?, c ≠ '{' ∧ c ≠ '\n' := by
  cases h with
  | nil => exact nofun
  | nested | quoted | escapedQuoted | escape =>
    rintro c ⟨⟩
    decide
  | plain hc _ =>
    rintro c ⟨⟩
    exact ⟨Text.ne_of_class hc rfl, Text.ne_of_class hc rfl⟩

/-- A dollar sign in front of parts opens no span. -/
theorem not_opener (h : Parts ('}' :: k) p v) (c : Char) :
    ¬ ['$', '{'] <+: c :: (p ++ '}' :: k) := by
  intro hprefix
  rw [List.cons_prefix_cons] at hprefix
  have hhead := h.ne_of_head
  cases p with
  | nil => simp at hprefix
  | cons d p =>
    rw [List.cons_append, List.cons_prefix_cons] at hprefix
    exact (hhead d rfl).1 hprefix.2.1.symm

theorem joined_append (h : Parts ('}' :: k) p v) :
    joined (spanPart span) (p ++ '}' :: k) = .ok v ('}' :: k) := by
  generalize hk' : '}' :: k = k' at h
  induction h generalizing k with
  | nil =>
    subst hk'
    exact joined_of_refuses (refuses_spanPart_close k)
  | @nested _ p v p' v' h h' ih ih' =>
    subst hk'
    have hspan : spanPart span ('$' :: '{' :: (p ++ '}' :: (p' ++ '}' :: k))) =
        .ok ('$' :: '{' :: (v ++ ['}'])) (p' ++ '}' :: k) :=
      orElse_of_ok (span_eq_ok.2 ⟨_, v, rfl, ih rfl, rfl⟩) _
    rw [List.cons_append, List.cons_append, List.append_assoc, List.cons_append,
      joined_of_ok hspan, ih' rfl, Reply.map_ok]
    simp
  | quoted hbody h ih =>
    subst hk'
    rw [List.cons_append, List.append_assoc, List.cons_append,
      joined_of_ok (spanPart_quoted hbody _), ih rfl, Reply.map_ok]
    simp
  | escapedQuoted hbody h ih =>
    subst hk'
    rw [List.cons_append, List.cons_append, List.append_assoc, List.cons_append, List.cons_append,
      joined_of_ok (spanPart_escapedQuoted hbody _), ih rfl, Reply.map_ok]
    simp
  | escape hc hopen h ih =>
    subst hk'
    rw [List.cons_append, List.cons_append, joined_of_ok (spanPart_escape hc hopen), ih rfl,
      Reply.map_ok]
    rfl
  | @plain _ p v c hc h ih =>
    subst hk'
    rw [List.cons_append, joined_of_ok (spanPart_of_isSpanPlain hc (h.not_opener c)), ih rfl,
      Reply.map_ok]
    rfl

theorem of_joined {s v rest : List Char}
    (h : joined (spanPart span) s = .ok v ('}' :: rest)) :
    ∃ p, s = p ++ '}' :: rest ∧ Parts ('}' :: rest) p v := by
  obtain ⟨-, rfl, rfl⟩ | ⟨ds, mid, es, hpart, hrest, rfl⟩ := joined_eq_ok.1 h
  · exact ⟨[], rfl, .nil⟩
  · have hlt : mid.length < s.length := Consumes.length_lt hpart
    obtain ⟨p, rfl, hp⟩ := of_joined hrest
    obtain hspan | ⟨-, hquoted | ⟨-, hescaped | ⟨hopen, hkept | ⟨hescape, hplain⟩⟩⟩⟩ :
        _ ∨ _ ∧ (_ ∨ _ ∧ (_ ∨ _ ∧ (_ ∨ _ ∧ _))) := by
      simpa only [spanPart, orElse_eq_ok] using hpart
    · obtain ⟨s', v', rfl, hinner, rfl⟩ := span_eq_ok.1 hspan
      obtain ⟨p', rfl, hp'⟩ := of_joined hinner
      exact ⟨'$' :: '{' :: (p' ++ '}' :: p), by simp, by simpa using hp'.nested hp⟩
    · obtain ⟨body, hbody, rfl, rfl⟩ := quotedInSpan_eq_ok.1 hquoted
      exact ⟨'"' :: (body ++ '"' :: p), by simp, by simpa using hp.quoted hbody⟩
    · obtain ⟨body, hbody, rfl, rfl⟩ := escapedQuotedInSpan_eq_ok.1 hescaped
      exact ⟨'\\' :: '"' :: (body ++ '\\' :: '"' :: p), by simp,
        by simpa using hp.escapedQuoted hbody⟩
    · obtain ⟨c, hc, rfl, rfl⟩ := keptEscape_eq_ok.1 hkept
      refine ⟨'\\' :: c :: p, rfl, .escape (by simpa using hc) ?_ hp⟩
      rintro rfl ⟨body, rest', hbody, heq⟩
      exact hopen.ne_ok _ rest' (escapedQuotedInSpan_eq_ok.2 ⟨body, hbody, by rw [heq], rfl⟩)
    · simp only [bind_eq_ok, satisfy_eq_ok, pure_eq_ok] at hplain
      obtain ⟨c, _, ⟨hc, rfl⟩, rfl, rfl⟩ := hplain
      refine ⟨c :: p, rfl, .plain ?_ hp⟩
      -- a backslash stands for itself at the end of a line only, where no span goes on
      have hbackslash : c ≠ '\\' := by
        rintro rfl
        have hhead := hp.ne_of_head
        cases p with
        | nil => exact hescape.ne_ok _ _ (keptEscape_cons rfl _)
        | cons d p =>
          exact hescape.ne_ok _ _ (keptEscape_cons (by simpa using (hhead d rfl).2) _)
      simpa [isSpanPlain, hbackslash, and_assoc] using hc
termination_by s.length

theorem lastQuote?_span (h : Parts k p v) :
    lastQuote? ('$' :: '{' :: (v ++ ['}'])) = lastQuote? v := by
  rw [h.lastQuote?_nested, lastQuote?, Option.none_or]

end Parts

theorem span_eq_ok_iff_parts {s cs rest : List Char} : span s = .ok cs rest ↔
    ∃ p v, s = '$' :: '{' :: (p ++ '}' :: rest) ∧ cs = '$' :: '{' :: (v ++ ['}']) ∧
      Parts ('}' :: rest) p v := by
  rw [span_eq_ok]
  constructor
  · rintro ⟨_, v, rfl, h, rfl⟩
    obtain ⟨p, rfl, hp⟩ := Parts.of_joined h
    exact ⟨p, v, rfl, rfl, hp⟩
  · rintro ⟨p, v, rfl, rfl, hp⟩
    exact ⟨_, v, rfl, hp.joined_append, rfl⟩

/-- A span is read alike in front of a text that ends no string argument unless the other does. -/
theorem span_congr_behind {p r r' v : List Char} (h : span (p ++ r) = .ok v r)
    (hends : EndsQuote r' → EndsQuote r) : span (p ++ r') = .ok v r' := by
  obtain ⟨parts, value, heq, rfl, hparts⟩ := span_eq_ok_iff_parts.1 h
  obtain rfl : p = '$' :: '{' :: (parts ++ ['}']) := by
    refine List.append_cancel_right (heq.trans ?_)
    simp
  refine span_eq_ok_iff_parts.2 ⟨parts, value, by simp, rfl, ?_⟩
  refine Parts.congr_behind (x := ['}']) hparts rfl fun _ hr' hlast => ?_
  obtain ⟨q, hq, hopen⟩ := hparts.exists_open hlast
  have hclose : Body isInEscaped ['}'] := .plain rfl .nil
  exact hopen (((hends hr').behind hclose).behind hq)

/-- **Only an escaped quote behind a span can change what the span is read as.**  A span is read
alike in front of another text, unless its last double quote stands for itself, and the other text
ends a string argument that begins with it.  So it is read alike in front of every text exactly if
that quote is no escaped one. -/
theorem span_behind {p r v : List Char} (h : span (p ++ r) = .ok v r) :
    (∀ r', span (p ++ r') = .ok v r' ↔ ¬ (lastQuote? v = some true ∧ EndsQuote r')) ∧
      ((∀ r', span (p ++ r') = .ok v r') ↔ lastQuote? v ≠ some true) := by
  obtain ⟨parts, value, heq, rfl, hparts⟩ := span_eq_ok_iff_parts.1 h
  obtain rfl : p = '$' :: '{' :: (parts ++ ['}']) := by
    refine List.append_cancel_right (heq.trans ?_)
    simp
  rw [hparts.lastQuote?_span]
  have hbehind : ∀ r', span ('$' :: '{' :: (parts ++ ['}']) ++ r') =
      .ok ('$' :: '{' :: (value ++ ['}'])) r' ↔
        ¬ (lastQuote? value = some true ∧ EndsQuote r') := by
    intro r'
    rw [span_eq_ok_iff_parts]
    constructor
    · rintro ⟨p', v', heq', hv', hparts'⟩ ⟨hlast, hends⟩
      obtain rfl : value = v' := by simpa using hv'
      obtain ⟨q, hq, hopen⟩ := hparts'.exists_open hlast
      have hclose : Body isInEscaped ['}'] := .plain rfl .nil
      exact hopen ((hends.behind hclose).behind hq)
    · intro hlast
      refine ⟨parts, value, by simp, rfl, ?_⟩
      exact Parts.congr_behind (x := ['}']) hparts rfl fun _ hends hv => hlast ⟨hv, hends⟩
  refine ⟨hbehind, ?_⟩
  simp only [hbehind]
  constructor
  · intro hall hlast
    exact hall ['\\', '"'] ⟨hlast, [], [], .nil, rfl⟩
  · rintro hlast r' ⟨hlast', -⟩
    exact hlast hlast'

/-- `${\"}` is read as it stands, unless a string argument that is open behind its quote ends. -/
theorem span_behind_bare_quote :
    span ("$\x7b\\\"\x7d".toList ++ []) = .ok "$\x7b\\\"\x7d".toList [] ∧
      ∀ r, span ("$\x7b\\\"\x7d".toList ++ r) = .ok "$\x7b\\\"\x7d".toList r ↔ ¬ EndsQuote r := by
  have hspan : span ("$\x7b\\\"\x7d".toList ++ []) = .ok "$\x7b\\\"\x7d".toList [] := rfl
  have hlast : lastQuote? "$\x7b\\\"\x7d".toList = some true := rfl
  refine ⟨hspan, fun r => ?_⟩
  have hbehind := (span_behind hspan).1 r
  rwa [hlast, eq_self, true_and] at hbehind

/-- The same span in front of `\"}` is only the beginning of `${"}"}`. -/
theorem span_depends_on_what_follows :
    ¬ ∀ p r r' v, span (p ++ r) = .ok v r → span (p ++ r') = .ok v r' := by
  intro hstable
  have halone : span ("$\x7b\\\"\x7d".toList ++ []) = .ok "$\x7b\\\"\x7d".toList [] := rfl
  have hbefore : span ("$\x7b\\\"\x7d".toList ++ "\\\"\x7d".toList) =
      .ok "$\x7b\"\x7d\"\x7d".toList [] := rfl
  have heq := hbefore.symm.trans (hstable _ _ "\\\"\x7d".toList _ halone)
  rw [Reply.ok.injEq] at heq
  exact absurd heq.2 (by decide)

end Phrasebook.Resource
