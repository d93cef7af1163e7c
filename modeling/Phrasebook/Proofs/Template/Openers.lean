import Phrasebook.Proofs.Template.Failure
/-!
# Openers — where a span begins, and which texts have none

A `${` opens a span unless a dollar sign stands in front of it, however many there are: of a run of
dollar signs in front of a brace the last one opens nothing if another stands in front of it.  So a
text compiles to literal text exactly if each of its openers is escaped, and a text that does not
compile has an opener that is not, with the failure behind the first of them
(`Expression.parse_openers`).
-/
namespace Phrasebook.Template

open Phrasebook.Parser

/-! ## Bare openers -/

/-- An opener with no dollar sign in front of it. -/
structure BareOpener (s front rest : List Char) : Prop where
  split : s = front ++ opener ++ rest
  bare  : front.getLast? ≠ some '$'

/-- The bare opener that has the least in front of it. -/
structure FirstBareOpener (s front rest : List Char) : Prop extends BareOpener s front rest where
  first : ∀ {front' rest'}, BareOpener s front' rest' → front.length ≤ front'.length

/-- A dollar sign stands in front of every opener. -/
def OpenersEscaped (s : List Char) : Prop :=
  ∀ front rest, s = front ++ opener ++ rest → front.getLast? = some '$'

theorem openersEscaped_iff {s : List Char} :
    OpenersEscaped s ↔ ∀ front rest, ¬ BareOpener s front rest := by
  constructor
  · exact fun h front rest hopener => hopener.bare (h front rest hopener.split)
  · exact fun h front rest hs => Decidable.byContradiction fun hbare => h front rest ⟨hs, hbare⟩

theorem firstBareOpener_opener (s : List Char) : FirstBareOpener (opener ++ s) [] s where
  split := rfl
  bare  := nofun
  first := fun _ => Nat.zero_le _

theorem not_openersEscaped_opener (s : List Char) : ¬ OpenersEscaped (opener ++ s) :=
  fun h => openersEscaped_iff.1 h [] s (firstBareOpener_opener s).toBareOpener

/-- In front of `s`, the characters `cs` neither hold a bare opener nor begin or escape one. -/
def Passes (cs s : List Char) : Prop :=
  ∀ front rest, BareOpener (cs ++ s) front rest ↔
    ∃ front', front = cs ++ front' ∧ BareOpener s front' rest

theorem passes_cons {c : Char} {s : List Char} (hhere : ¬ opener <+: c :: s)
    (hnext : c = '$' → ¬ opener <+: s) : Passes [c] s := by
  intro front rest
  constructor
  · rintro ⟨hs, hbare⟩
    cases front with
    | nil => exact absurd ⟨rest, hs.symm⟩ hhere
    | cons d front =>
      obtain ⟨rfl, htail⟩ := List.cons.inj hs
      exact ⟨front, rfl, htail, fun hlast => hbare (by rw [List.getLast?_cons, hlast]; rfl)⟩
  · rintro ⟨front, rfl, rfl, hbare⟩
    refine ⟨rfl, fun hlast => ?_⟩
    cases front with
    | nil => exact hnext (Option.some.inj hlast) (List.prefix_append opener rest)
    | cons d front => exact hbare (List.getLast?_cons_cons.symm.trans hlast)

theorem passes_plain {c : Char} (hc : c ≠ '$') (s : List Char) : Passes [c] s :=
  passes_cons (not_opener_prefix_cons hc s) fun h => absurd h hc

theorem passes_dollar {s : List Char} (hs : Lone s) : Passes ['$'] s :=
  passes_cons (mt opener_prefix_dollar.1 hs.1) fun _ => hs.2

/-- The opener in it has a dollar sign in front of it, and the brace is none. -/
theorem passes_escapedOpener (s : List Char) : Passes escapedOpener s := by
  intro front rest
  constructor
  · rintro ⟨hs, hbare⟩
    match front, hs, hbare with
    | [], hs, _ => cases hs
    | [c], hs, hbare => exact absurd (congrArg some (List.cons.inj hs).1.symm) hbare
    | [_, _], hs, _ => cases hs
    | _ :: _ :: _ :: front, hs, hbare =>
      cases hs
      refine ⟨front, rfl, rfl, fun hlast => hbare ?_⟩
      rw [List.getLast?_cons_cons, List.getLast?_cons_cons, List.getLast?_cons, hlast]
      rfl
  · rintro ⟨front, rfl, rfl, hbare⟩
    refine ⟨by simp, fun hlast => ?_⟩
    rw [List.getLast?_append] at hlast
    cases hfront : front.getLast? with
    | none => rw [hfront] at hlast; cases hlast
    | some d => rw [hfront] at hlast hbare; exact hbare hlast

theorem Passes.openersEscaped {cs s : List Char} (h : Passes cs s) :
    OpenersEscaped (cs ++ s) ↔ OpenersEscaped s := by
  rw [openersEscaped_iff, openersEscaped_iff]
  constructor
  · exact fun hnone front rest hopener => hnone (cs ++ front) rest ((h _ _).2 ⟨front, rfl, hopener⟩)
  · intro hnone front rest hopener
    obtain ⟨front', -, hopener'⟩ := (h _ _).1 hopener
    exact hnone front' rest hopener'

theorem Passes.firstBareOpener {cs s front rest : List Char} (h : Passes cs s)
    (hfirst : FirstBareOpener s front rest) : FirstBareOpener (cs ++ s) (cs ++ front) rest where
  toBareOpener := (h _ _).2 ⟨front, rfl, hfirst.toBareOpener⟩
  first := by
    intro front' rest' hopener
    obtain ⟨front'', rfl, hopener'⟩ := (h _ _).1 hopener
    rw [List.length_append, List.length_append]
    exact Nat.add_le_add_left (hfirst.first hopener') cs.length

theorem Passes.exists_firstBareOpener {cs s left : List Char} (h : Passes cs s)
    (hfirst : ∃ front gap, FirstBareOpener s front (gap ++ left)) :
    ∃ front gap, FirstBareOpener (cs ++ s) front (gap ++ left) := by
  obtain ⟨front, gap, hfirst⟩ := hfirst
  exact ⟨cs ++ front, gap, h.firstBareOpener hfirst⟩

/-! ## Literal texts -/

/-- The text with every escaped opener replaced by an opener. -/
def unescapeOpeners : List Char → List Char
  | []                      => []
  | '$' :: '$' :: '{' :: cs => '$' :: '{' :: unescapeOpeners cs
  | c :: cs                 => c :: unescapeOpeners cs

theorem unescapeOpeners_cons {c : Char} {s : List Char} (h : ¬ escapedOpener <+: c :: s) :
    unescapeOpeners (c :: s) = c :: unescapeOpeners s := by
  rw [unescapeOpeners]
  rintro cs rfl rfl
  exact h ⟨cs, rfl⟩

theorem unescapeOpeners_eq_nil {s : List Char} : unescapeOpeners s = [] ↔ s = [] := by
  fun_cases unescapeOpeners s <;> simp

theorem nodesBehind_of_openersEscaped (s : List Char) : OpenersEscaped s → ∀ held,
    nodesBehind held s = .ok (textNode (held.reverse ++ unescapeOpeners s)) [] := by
  induction s using text_rec with
  | nil =>
    intro _ held
    rw [nodesBehind_nil, unescapeOpeners, List.append_nil]
  | plain c s hc ih =>
    intro h held
    rw [nodesBehind_plain hc, ih ((passes_plain hc s).openersEscaped.1 h),
      unescapeOpeners_cons (not_escapedOpener_prefix_cons hc s), List.reverse_cons,
      List.append_assoc]
    rfl
  | escaped s ih =>
    intro h held
    rw [nodesBehind_escapedOpener, ih ((passes_escapedOpener s).openersEscaped.1 h),
      unescapeOpeners, List.reverse_cons, List.reverse_cons, List.append_assoc, List.append_assoc]
    rfl
  | dollar s hs ih =>
    intro h held
    rw [nodesBehind_dollar hs, ih ((passes_dollar hs).openersEscaped.1 h),
      unescapeOpeners_cons (mt escapedOpener_prefix_dollar.1 hs.2), List.reverse_cons,
      List.append_assoc]
    rfl
  | span s rest node hspan ih => exact fun h => absurd h (not_openersEscaped_opener s)
  | failed s e hspan => exact fun h => absurd h (not_openersEscaped_opener s)

/-- A bare opener makes a node that is no text. -/
theorem openersEscaped_of_isText {held s rest : List Char} {nodes : List Node}
    (h : nodesBehind held s = .ok nodes rest) : nodes.all Node.isText = true → OpenersEscaped s := by
  refine nodesBehind_rec (P := fun _ s nodes => nodes.all Node.isText = true → OpenersEscaped s)
    ?_ ?_ ?_ ?_ ?_ h
  · exact fun held _ front rest hs => by simp [opener] at hs
  · exact fun held c s nodes hc ih htext => (passes_plain hc s).openersEscaped.2 (ih htext)
  · exact fun held s nodes ih htext => (passes_escapedOpener s).openersEscaped.2 (ih htext)
  · exact fun held s nodes hs ih htext => (passes_dollar hs).openersEscaped.2 (ih htext)
  · intro held cs s node nodes hcs ih htext
    rw [List.all_append, List.all_cons, hcs.isText, Bool.false_and, Bool.and_false] at htext
    cases htext

/-! ## Failures -/

/-- A text fails behind its first bare opener. -/
theorem firstBareOpener_of_failed (s : List Char) : ∀ {held e}, nodesBehind held s = .failed e →
    ∃ front gap, FirstBareOpener s front (gap ++ e.rest) := by
  induction s using text_rec with
  | nil =>
    intro held e h
    rw [nodesBehind_nil] at h
    cases h
  | plain c s hc ih =>
    intro held e h
    rw [nodesBehind_plain hc] at h
    exact (passes_plain hc s).exists_firstBareOpener (ih h)
  | escaped s ih =>
    intro held e h
    rw [nodesBehind_escapedOpener] at h
    exact (passes_escapedOpener s).exists_firstBareOpener (ih h)
  | dollar s hs ih =>
    intro held e h
    rw [nodesBehind_dollar hs] at h
    exact (passes_dollar hs).exists_firstBareOpener (ih h)
  | span s rest node hspan ih =>
    -- this span is read, so the failure is behind it, and its opener is still the first bare one
    intro held e h
    obtain ⟨t, ht⟩ : ∃ t, s = t ++ rest := by
      obtain ⟨cs, hcs, hs⟩ := span_eq_ok.1 hspan
      obtain ⟨t, rfl⟩ := hcs.split
      have hbehind : opener ++ s = opener ++ (t ++ rest) := hs
      exact ⟨t, List.append_cancel_left hbehind⟩
    rw [nodesBehind_span hspan, Reply.map_eq_failed] at h
    obtain ⟨gap, hgap⟩ := suffix_of_nodesBehind_failed h
    refine ⟨[], t ++ gap, ?_⟩
    rw [List.append_assoc, hgap, ← ht]
    exact firstBareOpener_opener s
  | failed s e hspan =>
    intro held e' h
    rw [nodesBehind_of_span_failed hspan] at h
    cases h
    obtain ⟨gap, hgap⟩ := suffix_of_span_failed hspan
    exact ⟨[], gap, hgap ▸ firstBareOpener_opener s⟩

end Phrasebook.Template

namespace Phrasebook

open Template in
/-- **Spans open at bare openers, and nowhere else.**  A text compiles to literal text exactly if
each of its openers is escaped, and then it stands for itself with the escapes taken away.  A text
that does not compile has a bare opener, it fails behind the first one, and always because something
was expected there: no text is left over. -/
theorem Expression.parse_openers (s : String) :
    ((∃ e, parse s = .ok e ∧ e.isLiteral = true) ↔ OpenersEscaped s.toList) ∧
    (OpenersEscaped s.toList → parse s =
      .ok ⟨if s = "" then [] else [.text (String.ofList (unescapeOpeners s.toList))]⟩) ∧
    ∀ err, parse s = .error err → ∃ front gap rest expected,
      FirstBareOpener s.toList front (gap ++ rest) ∧
        err = .before s.toList rest (.refused expected) := by
  have hliteral : OpenersEscaped s.toList →
      parse s = .ok ⟨textNode (unescapeOpeners s.toList)⟩ :=
    fun h => parse_eq_ok.2 (nodesBehind_of_openersEscaped s.toList h [])
  have htext : textNode (unescapeOpeners s.toList) =
      if s = "" then [] else [.text (String.ofList (unescapeOpeners s.toList))] := by
    by_cases hs : s = ""
    · rw [if_pos hs, hs]
      rfl
    · rw [if_neg hs]
      cases hcs : unescapeOpeners s.toList with
      | nil => exact absurd (String.toList_eq_nil_iff.1 (unescapeOpeners_eq_nil.1 hcs)) hs
      | cons c cs => rfl
  refine ⟨⟨?_, fun h => ⟨_, hliteral h, ?_⟩⟩, fun h => htext ▸ hliteral h, fun err h => ?_⟩
  · rintro ⟨e, hparse, he⟩
    exact openersEscaped_of_isText (parse_eq_ok.1 hparse) he
  · cases unescapeOpeners s.toList <;> rfl
  · obtain ⟨f, hf, rfl⟩ := parse_eq_error.1 h
    obtain ⟨front, gap, hfirst⟩ := firstBareOpener_of_failed s.toList hf
    exact ⟨front, gap, f.rest, f.expected, hfirst, rfl⟩

open Template in
/-- `$$${` is a dollar sign and an escaped opener.  With a span behind it that is not closed, the
failure is behind the opener of the span. -/
theorem Expression.parse_openers_dollars :
    OpenersEscaped "$$$\x7b".toList ∧ parse "$$$\x7b" = .ok ⟨[.text "$$\x7b"]⟩ ∧
      ∃ front gap rest expected, FirstBareOpener "$$$\x7b$\x7b".toList front (gap ++ rest) ∧
        ParseError.unexpectedEnd ⟨1, 7⟩ =
          .before "$$$\x7b$\x7b".toList rest (.refused expected) := by
  obtain ⟨hliteral, htext, -⟩ := parse_openers "$$$\x7b"
  have hescaped := hliteral.1 ⟨⟨[.text "$$\x7b"]⟩, rfl, rfl⟩
  have hfails : parse "$$$\x7b$\x7b" = .error (.unexpectedEnd ⟨1, 7⟩) := rfl
  exact ⟨hescaped, htext hescaped, (parse_openers _).2.2 _ hfails⟩

end Phrasebook
