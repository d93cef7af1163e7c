import Phrasebook.Proofs.Resource.Span
import Phrasebook.Proofs.Template.Canonical
/-!
# Strings of resource files — escapes outside of spans, spans as they stand

A string is decoded in two steps: a resource file takes its backslash escapes away, and the grammar
of templates reads what is left.  An escaped dollar sign in front of a brace becomes the template's
own escape, so `escapeOpeners` says what the first step makes of text without spans.  In front of a
span it becomes a dollar sign like any other, and the second step takes the two for an escape.
-/
namespace Phrasebook.Resource

open Phrasebook.Parser

/-! ## Pieces -/

instance consumes_escapedDollar : Consumes escapedDollar := by
  unfold escapedDollar
  infer_instance

instance consumes_stringPiece : Consumes stringPiece := by
  unfold stringPiece
  infer_instance

instance consumes_quoted : Consumes quoted := by
  unfold quoted
  infer_instance

theorem unescape_eq_dollar {e : Char} (h : Text.unescape e = some '$') : e = '$' := by
  unfold Text.unescape at h
  split at h <;> first | rfl | cases h

theorem unescape_ne_brace {e : Char} : Text.unescape e ≠ some '{' := by
  intro h
  unfold Text.unescape at h
  split at h <;> cases h

theorem refuses_escapedDollar {s : List Char} (h : ¬ ['\\', '$', '{'] <+: s) :
    Refuses escapedDollar s := by
  unfold escapedDollar
  by_cases hd : ['\\', '$'] <+: s
  · obtain ⟨t, rfl⟩ := hd
    have hbrace : Refuses (char '{') t := refuses_char fun ht => by
      obtain ⟨t', rfl⟩ := List.head?_eq_some_iff.1 ht
      exact h ⟨t', rfl⟩
    exact refuses_bind_of_ok (literal_append ['\\', '$'] t) (hbrace.peek.bind _)
  · exact (refuses_literal hd).bind _

theorem stringPiece_span {s rest cs : List Char} (h : span s = .ok cs rest) :
    stringPiece s = .ok cs rest := orElse_of_ok h _

theorem stringPiece_escapedDollar {s : List Char} (hs : ['{'] <+: s) :
    stringPiece ('\\' :: '$' :: s) = .ok ['$', '$'] s := by
  have hpeek : peek (char '{') s = .ok () s := by
    obtain ⟨t, rfl⟩ := hs
    exact peek_of_ok (char_cons '{' t)
  have hdollar : escapedDollar (['\\', '$'] ++ s) = .ok ['$', '$'] s := by
    unfold escapedDollar
    rw [bind_of_ok (literal_append ['\\', '$'] _), bind_of_ok hpeek]
    rfl
  unfold stringPiece
  rw [orElse_of_refuses (refuses_span (not_cons_prefix_cons (by decide) ['{'] _))]
  exact orElse_of_ok hdollar _

theorem stringPiece_escape {e c : Char} {s : List Char} (he : Text.unescape e = some c)
    (hs : e = '$' → ¬ ['{'] <+: s) : stringPiece ('\\' :: e :: s) = .ok [c] s := by
  have hdollar : ¬ ['\\', '$', '{'] <+: '\\' :: e :: s := by
    intro h
    have h := (List.cons_prefix_cons.1 (List.cons_prefix_cons.1 h).2)
    exact hs h.1.symm h.2
  have hescape : (do let _ ← char '\\'; let c ← pick Text.unescape; pure [c] : Parser (List Char))
      ('\\' :: e :: s) = .ok [c] s := by
    rw [bind_of_ok (char_cons '\\' _)]
    exact bind_pure_of_ok (pick_eq_ok.2 ⟨e, he, rfl⟩) _
  unfold stringPiece
  rw [orElse_of_refuses (refuses_span (not_cons_prefix_cons (by decide) ['{'] _)),
    orElse_of_refuses (refuses_escapedDollar hdollar)]
  exact orElse_of_ok hescape _

/-- A character stands for itself where it begins no span. -/
theorem stringPiece_of_refuses_span {c : Char} {s : List Char} (h1 : c ≠ '"') (h2 : c ≠ '\\')
    (h3 : c ≠ '\n') (hs : Refuses span (c :: s)) : stringPiece (c :: s) = .ok [c] s := by
  have htest : (c != '"' && c != '\\' && c != '\n') = true := by simp [h1, h2, h3]
  unfold stringPiece
  rw [orElse_of_refuses hs,
    orElse_of_refuses (refuses_escapedDollar (not_cons_prefix_cons h2 _ s)),
    orElse_of_refuses ((refuses_head h2 s).bind _)]
  exact bind_pure_of_ok (satisfy_cons htest s) _

theorem stringPiece_plain {c : Char} {s : List Char} (h1 : c ≠ '"') (h2 : c ≠ '\\')
    (h3 : c ≠ '\n') (hs : c = '$' → ¬ ['{'] <+: s) : stringPiece (c :: s) = .ok [c] s := by
  refine stringPiece_of_refuses_span h1 h2 h3 (refuses_span fun h => ?_)
  exact hs (List.cons_prefix_cons.1 h).1.symm (List.cons_prefix_cons.1 h).2

theorem refuses_stringPiece_quote (s : List Char) : Refuses stringPiece ('"' :: s) :=
  (refuses_span (not_cons_prefix_cons (by decide) ['{'] s)).orElse <|
    (refuses_escapedDollar (not_cons_prefix_cons (by decide) _ s)).orElse <|
    ((refuses_head (by decide) s).bind _).orElse <|
    (refuses_satisfy (stops_cons.2 rfl)).bind _

/-! ## Spelling -/

/-- The ways to spell text outside of spans.  A dollar sign that opens a span is spelled with its
escape. -/
inductive Spelled : List Char → List Char → Prop
  | nil : Spelled [] []
  | plain {c : Char} {s cs : List Char} : c ≠ '"' → c ≠ '\\' → c ≠ '\n' →
      (c = '$' → ¬ ['{'] <+: s) → Spelled s cs → Spelled (c :: s) (c :: cs)
  | escape {e c : Char} {s cs : List Char} : Text.unescape e = some c → Spelled s cs →
      Spelled (c :: s) ('\\' :: e :: cs)

/-- Text with each double quote, backslash, newline and dollar sign written as its escape. -/
def escape : List Char → List Char
  | []         => []
  | '"' :: cs  => '\\' :: '"' :: escape cs
  | '\\' :: cs => '\\' :: '\\' :: escape cs
  | '\n' :: cs => '\\' :: 'n' :: escape cs
  | '$' :: cs  => '\\' :: '$' :: escape cs
  | c :: cs    => c :: escape cs

theorem spelled_escape (cs : List Char) : Spelled cs (escape cs) := by
  fun_induction escape cs with
  | case1 => exact .nil
  | case2 cs ih | case3 cs ih | case4 cs ih | case5 cs ih => exact .escape rfl ih
  | case6 c cs h1 h2 h3 h4 ih => exact .plain h1 h2 h3 (fun h => absurd h h4) ih

/-- A brace has one spelling, and nothing else begins with it. -/
theorem Spelled.brace {s cs : List Char} (h : Spelled s cs) : ['{'] <+: cs ↔ ['{'] <+: s := by
  cases h with
  | nil => rfl
  | plain => rw [List.cons_prefix_cons, List.cons_prefix_cons]; simp
  | @escape e c s cs he _ =>
    have hc : '{' ≠ c := by
      rintro rfl
      exact unescape_ne_brace he
    constructor
    · exact fun h => absurd h (not_cons_prefix_cons (by decide) [] _)
    · exact fun h => absurd h (not_cons_prefix_cons hc.symm [] _)

theorem brace_prefix_append {s t : List Char} (hs : ¬ ['{'] <+: s) (ht : s = [] → ¬ ['{'] <+: t) :
    ¬ ['{'] <+: s ++ t := by
  cases s with
  | nil => exact ht rfl
  | cons c s =>
    intro h
    exact hs (List.cons_prefix_cons.2 ⟨(List.cons_prefix_cons.1 h).1, ⟨s, rfl⟩⟩)

theorem Spelled.eq_nil {s : List Char} (h : Spelled s []) : s = [] := by
  cases h
  rfl

/-- What a spelled dollar sign meets when it is not in front of a brace. -/
theorem Spelled.no_brace {s cs t : List Char} (h : Spelled s cs) (hs : ¬ ['{'] <+: s)
    (ht : ('$' :: s).getLast? = some '$' → ¬ ['{'] <+: t) : ¬ ['{'] <+: cs ++ t := by
  refine brace_prefix_append (mt h.brace.1 hs) fun hcs => ht ?_
  subst hcs
  rw [h.eq_nil]
  rfl

theorem getLast?_tail {c d : Char} {s : List Char} {P : Prop}
    (h : (c :: s).getLast? = some d → P) : s.getLast? = some d → P := fun hs => h <| by
  rw [List.getLast?_cons, hs]
  rfl

/-- **Spelled text is decoded to text with its openers escaped**, unless it ends in a dollar sign
with a brace behind it. -/
theorem joined_spelled {s cs t : List Char} (h : Spelled s cs)
    (ht : s.getLast? = some '$' → ¬ ['{'] <+: t) :
    joined stringPiece (cs ++ t) =
      (joined stringPiece t).map (Template.escapeOpeners s ++ ·) := by
  induction h with
  | nil =>
    simp only [List.nil_append, Template.escapeOpeners]
    cases joined stringPiece t <;> rfl
  | @plain c s cs h1 h2 h3 hc hs ih =>
    have hopen : ¬ Template.opener <+: c :: s := fun h =>
      hc (List.cons_prefix_cons.1 h).1.symm (List.cons_prefix_cons.1 h).2
    have hpiece : stringPiece (c :: (cs ++ t)) = .ok [c] (cs ++ t) :=
      stringPiece_plain h1 h2 h3 fun hd => hs.no_brace (hc hd) (hd ▸ ht)
    rw [List.cons_append, joined_of_ok hpiece, ih (getLast?_tail ht), Reply.map_map,
      Template.escapeOpeners_cons hopen]
    rfl
  | @escape e c s cs he hs ih =>
    rw [List.cons_append, List.cons_append]
    by_cases hopen : Template.opener <+: c :: s
    · obtain ⟨rfl, hbrace⟩ := List.cons_prefix_cons.1 hopen
      have hcs : ['{'] <+: cs ++ t := (hs.brace.2 hbrace).trans (List.prefix_append cs t)
      rw [unescape_eq_dollar he, joined_of_ok (stringPiece_escapedDollar hcs),
        ih (getLast?_tail ht), Reply.map_map, Template.escapeOpeners_opener hbrace]
      rfl
    · have hpiece : stringPiece ('\\' :: e :: (cs ++ t)) = .ok [c] (cs ++ t) := by
        refine stringPiece_escape he fun hd => ?_
        subst hd
        cases he
        exact hs.no_brace (fun hb => hopen (List.cons_prefix_cons.2 ⟨rfl, hb⟩)) ht
      rw [joined_of_ok hpiece, ih (getLast?_tail ht), Reply.map_map,
        Template.escapeOpeners_cons hopen]
      rfl

/-! ## Strings -/

theorem quoted_eq_ok {s rest cs : List Char} :
    quoted ('"' :: s) = .ok cs rest ↔ joined stringPiece s = .ok cs ('"' :: rest) := by
  unfold quoted joined
  rw [expecting_eq_ok, bind_of_ok (char_cons '"' s), commit_eq_ok, bind_eq_ok, Reply.map_eq_ok]
  constructor
  · rintro ⟨pieces, mid, hmany, hclose⟩
    obtain ⟨_, _, hquote, hpure⟩ := bind_eq_ok.1 hclose
    obtain ⟨-, rfl⟩ := char_eq_ok.1 (expecting_eq_ok.1 hquote)
    obtain ⟨rfl, rfl⟩ := pure_eq_ok.1 hpure
    exact ⟨pieces, rfl, hmany⟩
  · rintro ⟨pieces, rfl, hmany⟩
    exact ⟨pieces, '"' :: rest, hmany, bind_of_ok (expecting_eq_ok.2 (char_cons '"' rest)) _⟩

theorem joined_quote (rest : List Char) : joined stringPiece ('"' :: rest) = .ok [] ('"' :: rest) :=
  joined_of_refuses (refuses_stringPiece_quote rest)

theorem quoted_spelled {s cs : List Char} (h : Spelled s cs) (rest : List Char) :
    quoted ('"' :: cs ++ '"' :: rest) = .ok (Template.escapeOpeners s) rest := by
  refine quoted_eq_ok.2 ?_
  show joined stringPiece (cs ++ '"' :: rest) = _
  rw [joined_spelled h fun _ => not_cons_prefix_cons (by decide) [] rest, joined_quote,
    Reply.map_ok, List.append_nil]

theorem quoted_spelled_span {s cs t : List Char} {node : Node} (h : Spelled s cs)
    (ht : Template.SpanText node t) (hline : '\n' ∉ t) (rest : List Char) :
    quoted ('"' :: (cs ++ t) ++ '"' :: rest) = .ok (Template.escapeOpeners s ++ t) rest := by
  have hbrace : ¬ ['{'] <+: t ++ '"' :: rest := by
    obtain ⟨t', rfl⟩ := ht.split
    exact not_cons_prefix_cons (by decide) [] _
  refine quoted_eq_ok.2 ?_
  show joined stringPiece (cs ++ t ++ '"' :: rest) = _
  rw [List.append_assoc, joined_spelled h fun _ => hbrace,
    joined_of_ok (stringPiece_span (span_of_spanText ht hline _)), joined_quote, Reply.map_ok,
    Reply.map_ok, List.append_nil]

/-! ## Text in front of a span -/

theorem parse_escapeOpeners_span {l : String} {t : List Char} {node : Node} (hl : l ≠ "")
    (hd : l.toList.getLast? ≠ some '$') (ht : Template.SpanText node t) :
    Expression.parse (String.ofList (Template.escapeOpeners l.toList ++ t)) =
      .ok ⟨[.text l, node]⟩ := by
  have hspan : Template.span t = .ok node [] :=
    Template.span_eq_ok.2 ⟨t, ht, (List.append_nil t).symm⟩
  have htext : Template.textNode l.toList = [.text l] := by
    refine Template.textNode_toList ?_
    rw [Node.isCanonical, Bool.not_eq_true', List.isEmpty_eq_false_iff]
    exact fun h => hl (String.toList_eq_nil_iff.1 h)
  rw [Template.parse_eq_ok, String.toList_ofList,
    Template.nodesBehind_escapeOpeners _ _ _ (fun h => absurd h hd), List.append_nil,
    Template.nodesBehind_span hspan, Template.nodesBehind_nil, List.reverse_reverse, htext]
  rfl

/-- **Escaped text in front of a span compiles to the text and the span exactly if it does not end
in a dollar sign.**  It is always decoded; a dollar sign at its end makes a template escape of the
opener behind it. -/
theorem escaped_before_span {l t : String} {node : Node} (hl : l ≠ "") (hline : '\n' ∉ t.toList)
    (hnode : node.isText = false) (ht : Expression.parse t = .ok ⟨[node]⟩) :
    ∃ cs, (∀ rest, quoted ('"' :: (escape l.toList ++ t.toList) ++ '"' :: rest) = .ok cs rest) ∧
      (Expression.parse (String.ofList cs) = .ok ⟨[.text l, node]⟩ ↔
        l.toList.getLast? ≠ some '$') := by
  have hspan := Template.spanText_of_single hnode (Template.parse_eq_ok.1 ht)
  refine ⟨_, quoted_spelled_span (spelled_escape l.toList) hspan hline, fun h => ?_, fun hd =>
    parse_escapeOpeners_span hl hd hspan⟩
  have hc : Node.allCanonical [.text l, node] = true := Template.isCanonical_of_parse h
  rw [Node.allCanonical, Bool.and_eq_true, Bool.and_eq_true, List.head?_cons, Option.all_some,
    Template.mayPrecede_text hnode, bne_iff_ne] at hc
  exact hc.1.2

theorem escaped_before_span_price :
    ∃ cs, (∀ rest, quoted ('"' :: (escape "$5 ".toList ++ "$\x7bf(_1)\x7d".toList) ++ '"' :: rest) =
        .ok cs rest) ∧
      (Expression.parse (String.ofList cs) = .ok ⟨[.text "$5 ", .call ⟨"f", [.positional 1]⟩]⟩ ↔
        "$5 ".toList.getLast? ≠ some '$') :=
  escaped_before_span (by decide) (by decide) rfl
    (Template.parse_print_of_isCanonical (e := ⟨[.call ⟨"f", [.positional 1]⟩]⟩) rfl rfl)

/-- A dollar sign by itself does not survive in front of a span. -/
theorem escaped_dollar_before_span :
    Expression.parse "$\x7b_1\x7d" = .ok ⟨[.positional 1]⟩ ∧
      quoted ('"' :: (escape "$".toList ++ "$\x7b_1\x7d".toList) ++ ['"']) =
        .ok "$$\x7b_1\x7d".toList [] ∧
      Expression.parse "$$\x7b_1\x7d" = .ok ⟨[.text "$\x7b_1\x7d"]⟩ ∧
      Expression.parse "$$\x7b_1\x7d" ≠ .ok ⟨[.text "$", .positional 1]⟩ := by
  have hparse : Expression.parse "$$\x7b_1\x7d" = .ok ⟨[.text "$\x7b_1\x7d"]⟩ :=
    Template.parse_eq_ok.2 rfl
  refine ⟨Template.parse_eq_ok.2 rfl, rfl, hparse, fun h => ?_⟩
  rw [hparse, Except.ok.injEq, Expression.mk.injEq] at h
  cases congrArg List.length h

end Phrasebook.Resource
