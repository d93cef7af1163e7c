import Mathlib.Data.List.Basic
import Phrasebook.Proofs.Resource.Lookahead
import Phrasebook.Proofs.Resource.Stop
/-!
# Lists — what may stand between the brackets

In the grammar of lists a comma stands behind a string.  The parser reads what it finds, the last
comma by itself; so it also reads a comma behind no string, and takes it for a list without items.
Everything else that it reads is a list of the grammar, with the items that its strings mean by
themselves.
-/
namespace Phrasebook.Resource

open Phrasebook.Parser

/-! ## Strings by themselves

A string may hold the opener of a span, and whether a brace closes the span is for the text to say
that follows.  Where the string was read to its closing quote no brace did, and none does if nothing
follows. -/

theorem escapedDollar_eq_ok {s rest cs : List Char} : escapedDollar s = .ok cs rest ↔
    s = '\\' :: '$' :: rest ∧ ['{'] <+: rest ∧ cs = ['$', '$'] := by
  unfold escapedDollar
  simp only [bind_eq_ok, literal_eq_ok, peek_eq_ok, char_eq_ok, pure_eq_ok]
  constructor
  · rintro ⟨_, _, rfl, _, _, ⟨⟨_, _, rfl, rfl⟩, rfl⟩, rfl, rfl⟩
    exact ⟨rfl, List.prefix_append ['{'] _, rfl⟩
  · rintro ⟨rfl, ⟨t, rfl⟩, rfl⟩
    exact ⟨(), _, rfl, (), _, ⟨⟨_, _, rfl, rfl⟩, rfl⟩, rfl, rfl⟩

theorem brace_prefix_quote {x : List Char} (s s' : List Char) (h : ['{'] <+: x ++ '"' :: s) :
    ['{'] <+: x ++ '"' :: s' := by
  cases x with
  | nil => exact absurd h (not_cons_prefix_cons (by decide) [] s)
  | cons c x =>
    rw [List.cons_append, List.cons_prefix_cons] at h ⊢
    exact ⟨h.1, List.nil_prefix⟩

/-- A span in front of the quote that ends a text is one whatever stands behind the quote. -/
theorem span_behind_quote {s v r : List Char} (h : span (s ++ ['"']) = .ok v r)
    (rest : List Char) : ∃ r', span (s ++ '"' :: rest) = .ok v r' := by
  obtain ⟨p, hp⟩ := suffix_of_ok h
  obtain rfl | ⟨y, d, rfl⟩ := List.eq_nil_or_concat r
  · obtain ⟨parts, -, heq, -⟩ := span_eq_ok_iff_parts.1 h
    have hlast := congrArg List.getLast? heq
    simp [List.getLast?_cons] at hlast
  · rw [List.concat_eq_append] at h hp
    rw [← List.append_assoc] at hp
    obtain ⟨rfl, hd⟩ := List.append_inj' hp rfl
    obtain rfl : d = '"' := by simpa using hd
    rw [List.append_assoc] at h
    refine ⟨y ++ '"' :: rest, ?_⟩
    rw [List.append_assoc]
    exact span_congr_behind h fun hends => hends.congr_behind []

theorem stringPiece_cut {q x rest cs : List Char}
    (h : stringPiece (q ++ (x ++ '"' :: rest)) = .ok cs (x ++ '"' :: rest)) :
    stringPiece (q ++ (x ++ ['"'])) = .ok cs (x ++ ['"']) := by
  obtain hspan | ⟨hspan, hdollar | ⟨hdollar, hescape | ⟨-, hplain⟩⟩⟩ :
      _ ∨ _ ∧ (_ ∨ _ ∧ (_ ∨ _ ∧ _)) := by
    simpa only [stringPiece, orElse_eq_ok] using h
  · exact stringPiece_span (span_congr_behind hspan fun hends => hends.congr_behind rest)
  · obtain ⟨hq, hbrace, rfl⟩ := escapedDollar_eq_ok.1 hdollar
    obtain rfl : q = ['\\', '$'] := List.append_cancel_right hq
    exact stringPiece_escapedDollar (brace_prefix_quote rest [] hbrace)
  · simp only [bind_eq_ok, char_eq_ok, pick_eq_ok, pure_eq_ok] at hescape
    obtain ⟨_, _, ⟨-, heq⟩, c, _, ⟨e, he, rfl⟩, rfl, rfl⟩ := hescape
    obtain rfl : q = ['\\', e] := List.append_cancel_right heq
    refine stringPiece_escape he fun hd hbrace => ?_
    subst hd
    exact hdollar.ne_ok _ _ (escapedDollar_eq_ok.2 ⟨rfl, brace_prefix_quote [] rest hbrace, rfl⟩)
  · simp only [bind_eq_ok, satisfy_eq_ok, pure_eq_ok, Bool.and_eq_true, bne_iff_ne] at hplain
    obtain ⟨c, _, ⟨⟨⟨h1, h2⟩, h3⟩, heq⟩, rfl, rfl⟩ := hplain
    obtain rfl : q = [c] := List.append_cancel_right heq
    refine stringPiece_of_refuses_span h1 h2 h3 (refuses_of_ne_ok fun v r hok => ?_)
    obtain ⟨r', hr'⟩ := span_behind_quote (s := c :: x) hok rest
    exact hspan.ne_ok v r' hr'

theorem joined_cut {rest : List Char} {x cs : List Char}
    (h : joined stringPiece (x ++ '"' :: rest) = .ok cs ('"' :: rest)) :
    joined stringPiece (x ++ ['"']) = .ok cs ['"'] := by
  obtain ⟨-, rfl, heq⟩ | ⟨ds, mid, es, hpiece, hmid, rfl⟩ := joined_eq_ok.1 h
  · obtain rfl : x = [] := List.append_cancel_right heq
    exact joined_quote []
  · obtain ⟨x', rfl⟩ := suffix_of_joined hmid
    have hlt : x'.length < x.length := by
      simpa [Nat.add_lt_add_iff_right] using Consumes.length_lt hpiece
    obtain ⟨q, hq⟩ := suffix_of_ok hpiece
    rw [← List.append_assoc] at hq
    have hx : x = q ++ x' := (List.append_cancel_right hq).symm
    rw [hx, List.append_assoc] at hpiece ⊢
    rw [joined_of_ok (stringPiece_cut hpiece), joined_cut hmid, Reply.map_ok]
termination_by x.length

theorem head_of_quoted {s rest cs : List Char} (h : quoted s = .ok cs rest) :
    ∃ t, s = '"' :: t := by
  by_cases hhead : s.head? = some '"'
  · exact List.head?_eq_some_iff.1 hhead
  · exact absurd h ((refuses_quoted hhead).ne_ok cs rest)

/-- **A string that is read in front of a text is read to the same characters by itself.** -/
theorem quoted_alone {t rest cs : List Char} (h : quoted (t ++ rest) = .ok cs rest) :
    quoted t = .ok cs [] := by
  cases t with
  | nil => exact absurd (Consumes.length_lt h) (Nat.lt_irrefl _)
  | cons c t =>
    obtain ⟨_, hhead⟩ := head_of_quoted h
    obtain ⟨rfl, -⟩ := List.cons.inj hhead
    have hjoined := quoted_eq_ok.1 h
    obtain ⟨x, hx⟩ := suffix_of_joined hjoined
    have hquote : x ++ '"' :: rest = x ++ ['"'] ++ rest := by simp
    obtain rfl : x ++ ['"'] = t := List.append_cancel_right (hquote.symm.trans hx)
    rw [← hx] at hjoined
    exact quoted_eq_ok.2 (joined_cut hjoined)

/-! ## The grammar -/

/-- The text is a string, from quote to quote, and means `s` by itself. -/
def IsString (s : String) (cs : List Char) : Prop := quoted cs = .ok s.toList []

/-- Strings with a comma in front of each: `( "," gap string gap )*`. -/
inductive FurtherItems : List String → List Char → Prop
  | nil : FurtherItems [] []
  | cons {s : String} {items : List String} {g cs g' more : List Char} : Gap g → IsString s cs →
      Gap g' → FurtherItems items more →
      FurtherItems (s :: items) (',' :: g ++ cs ++ g' ++ more)

/-- What may stand behind the last string: `( "," )? gap`. -/
inductive LastComma : List Char → Prop
  | none {g : List Char} : Gap g → LastComma g
  | comma {g : List Char} : Gap g → LastComma (',' :: g)

/-- The texts of lists: `"[" gap ( string gap ( "," gap string gap )* ( "," )? gap )? "]"`. -/
inductive ListText : List String → List Char → Prop
  | empty {g : List Char} : Gap g → ListText [] ('[' :: g ++ [']'])
  | strings {s : String} {items : List String} {g cs g' more last : List Char} : Gap g →
      IsString s cs → Gap g' → FurtherItems items more → LastComma last →
      ListText (s :: items) ('[' :: g ++ cs ++ g' ++ more ++ last ++ [']'])

/-- Brackets with a comma between them, and no string. -/
def IsBareComma (p : List Char) : Prop :=
  ∃ g g', Gap g ∧ Gap g' ∧ p = '[' :: g ++ ',' :: g' ++ [']']

/-! ## What the parts of a list read -/

theorem comma_sound {s rest : List Char} {u : Unit} (h : comma s = .ok u rest) (hrest : rest ≠ []) :
    ∃ g, Gap g ∧ s = ',' :: g ++ rest := by
  obtain ⟨_, mid, hcomma, hgap⟩ := bind_eq_ok.1 h
  obtain ⟨-, rfl⟩ := char_eq_ok.1 hcomma
  obtain ⟨g, hg, rfl⟩ := gap_sound hgap hrest
  exact ⟨g, hg, rfl⟩

theorem listItem_sound {s rest : List Char} {item : String} (h : listItem s = .ok item rest)
    (hrest : rest ≠ []) : ∃ cs g, IsString item cs ∧ Gap g ∧ s = cs ++ g ++ rest := by
  obtain ⟨cs, mid, hquoted, htail⟩ := bind_eq_ok.1 h
  obtain ⟨_, _, hgap, hpure⟩ := bind_eq_ok.1 htail
  obtain ⟨rfl, rfl⟩ := pure_eq_ok.1 hpure
  obtain ⟨g, hg, rfl⟩ := gap_sound hgap hrest
  obtain ⟨t, rfl⟩ := suffix_of_ok hquoted
  refine ⟨t, g, ?_, hg, (List.append_assoc _ _ _).symm⟩
  rw [IsString, String.toList_ofList]
  exact quoted_alone hquoted

theorem furtherItems_sound : ∀ {items : List String} {s rest : List Char},
    many (do let _ ← comma; listItem) s = .ok items rest → rest ≠ [] →
      ∃ more, FurtherItems items more ∧ s = more ++ rest
  | [], s, rest, h, _ => ⟨[], .nil, (many_eq_ok_nil.1 h).2⟩
  | item :: items, s, rest, h, hrest => by
    obtain ⟨mid, hround, hmany⟩ := many_eq_ok_cons.1 h
    obtain ⟨more, hmore, rfl⟩ := furtherItems_sound hmany hrest
    have hmid : more ++ rest ≠ [] := List.append_ne_nil_of_right_ne_nil more hrest
    obtain ⟨_, s', hcomma, hitem⟩ := bind_eq_ok.1 hround
    obtain ⟨cs, g', hcs, hg', rfl⟩ := listItem_sound hitem hmid
    have hs' : cs ++ g' ++ (more ++ rest) ≠ [] := List.append_ne_nil_of_right_ne_nil _ hmid
    obtain ⟨g, hg, rfl⟩ := comma_sound hcomma hs'
    exact ⟨',' :: g ++ cs ++ g' ++ more, .cons hg hcs hg' hmore, by simp⟩

theorem lastComma_sound {s rest : List Char} {o : Option Unit}
    (h : optional comma s = .ok o rest) (hrest : rest ≠ []) :
    s = rest ∨ ∃ g, Gap g ∧ s = ',' :: g ++ rest := by
  obtain ⟨_, -, hcomma⟩ | ⟨-, -, rfl⟩ := optional_eq_ok.1 h
  · exact .inr (comma_sound hcomma hrest)
  · exact .inl rfl

/-! ## Lists -/

theorem list_sound {s rest : List Char} {items : List String} (h : list s = .ok items rest) :
    ∃ p, s = p ++ rest ∧ (ListText items p ∨ IsBareComma p ∧ items = []) := by
  unfold list at h
  simp only [expecting_eq_ok, commit_eq_ok, bind_eq_ok, char_eq_ok, pure_eq_ok] at h
  obtain ⟨_, _, ⟨-, rfl⟩, _, inside, hgap, items, behind, hitems, o, _, hlast, _, rest, ⟨-, rfl⟩,
    rfl, rfl⟩ := h
  have hclose : ']' :: rest ≠ [] := List.cons_ne_nil _ _
  have hbehind : behind ≠ [] := by
    obtain rfl | ⟨g, -, rfl⟩ := lastComma_sound hlast hclose
    · exact hclose
    · exact List.cons_ne_nil _ _
  obtain ⟨-, rfl, rfl⟩ | ⟨item, others, mid, rfl, hitem, hmany⟩ := sepBy_eq_ok.1 hitems
  · obtain ⟨g, hg, rfl⟩ := gap_sound hgap hbehind
    obtain rfl | ⟨g', hg', rfl⟩ := lastComma_sound hlast hclose
    · exact ⟨'[' :: g ++ [']'], by simp, .inl (.empty hg)⟩
    · exact ⟨'[' :: g ++ ',' :: g' ++ [']'], by simp, .inr ⟨⟨g, g', hg, hg', rfl⟩, rfl⟩⟩
  · obtain ⟨more, hmore, rfl⟩ := furtherItems_sound hmany hbehind
    have hmid : more ++ behind ≠ [] := List.append_ne_nil_of_right_ne_nil more hbehind
    obtain ⟨cs, g', hcs, hg', rfl⟩ := listItem_sound hitem hmid
    have hinside : cs ++ g' ++ (more ++ behind) ≠ [] :=
      List.append_ne_nil_of_right_ne_nil _ hmid
    obtain ⟨g, hg, rfl⟩ := gap_sound hgap hinside
    obtain rfl | ⟨g'', hg'', rfl⟩ := lastComma_sound hlast hclose
    · exact ⟨'[' :: g ++ cs ++ g' ++ more ++ [] ++ [']'], by simp,
        .inl (.strings hg hcs hg' hmore (.none .nil))⟩
    · exact ⟨'[' :: g ++ cs ++ g' ++ more ++ (',' :: g'') ++ [']'], by simp,
        .inl (.strings hg hcs hg' hmore (.comma hg''))⟩

namespace IsBareComma

variable {p : List Char}

/-- Behind the bracket and its gap a list has a string or the other bracket. -/
theorem not_listText (h : IsBareComma p) (items : List String) : ¬ ListText items p := by
  obtain ⟨g, g', hg, -, rfl⟩ := h
  intro hlist
  have hcomma : gap (g ++ ',' :: (g' ++ [']'])) = .ok () (',' :: (g' ++ [']'])) :=
    gap_append_token hg (stops_cons.2 (by decide))
  generalize hp : '[' :: g ++ ',' :: g' ++ [']'] = p at hlist
  cases hlist with
  | @empty g₀ hg₀ =>
    have heq : g ++ ',' :: (g' ++ [']']) = g₀ ++ [']'] := by simpa using hp
    rw [heq, gap_append_token hg₀ (stops_cons.2 (by decide))] at hcomma
    cases hcomma
  | @strings s _ g₀ cs g₁ more last hg₀ hcs _ _ _ =>
    obtain ⟨t, rfl⟩ := head_of_quoted hcs
    have heq : g ++ ',' :: (g' ++ [']']) = g₀ ++ '"' :: (t ++ g₁ ++ more ++ last ++ [']']) := by
      simpa using hp
    rw [heq, gap_append_token hg₀ (stops_cons.2 (by decide))] at hcomma
    cases hcomma

theorem list_eq (h : IsBareComma p) (rest : List Char) : list (p ++ rest) = .ok [] rest := by
  obtain ⟨g, g', hg, hg', rfl⟩ := h
  have hgap : gap (g ++ ',' :: (g' ++ ']' :: rest)) = .ok () (',' :: (g' ++ ']' :: rest)) :=
    gap_append_token hg (stops_cons.2 (by decide))
  have hcomma : comma (',' :: (g' ++ ']' :: rest)) = .ok () (']' :: rest) :=
    comma_of_gap (gap_append_token hg' (stops_cons.2 (by decide)))
  have hitems : sepBy listItem comma (',' :: (g' ++ ']' :: rest)) =
      .ok [] (',' :: (g' ++ ']' :: rest)) := sepBy_of_refuses (refuses_listItem (by simp))
  simpa using list_of_items hgap hitems (optional_eq_ok.2 (.inl ⟨(), rfl, hcomma⟩))

end IsBareComma

/-- **What is read as a list is a list of the grammar, with the items that its strings mean by
themselves, or a comma without a string**, which is no list of the grammar and always read as one
without items. -/
theorem list_reads (s rest : List Char) :
    (∀ items, list s = .ok items rest →
      ∃ p, s = p ++ rest ∧ (ListText items p ∨ IsBareComma p ∧ items = [])) ∧
    ∀ p, s = p ++ rest → IsBareComma p → (∀ items, ¬ ListText items p) ∧ list s = .ok [] rest := by
  refine ⟨fun items h => list_sound h, ?_⟩
  rintro p rfl h
  exact ⟨h.not_listText, h.list_eq rest⟩

/-- Comments, and a comma behind the last string; the comma behind no string is the other case. -/
theorem list_reads_commented :
    let s := "[ \"a\" , # one\n \"$\x7b\" /* two */ ,]x".toList
    list s = .ok ["a", "$\x7b"] ['x'] ∧
      (∃ p, s = p ++ ['x'] ∧
        (ListText ["a", "$\x7b"] p ∨ IsBareComma p ∧ ["a", "$\x7b"] = [])) ∧
      IsBareComma ['[', ',', ']'] ∧
      (∀ items, ¬ ListText items ['[', ',', ']']) ∧ list ['[', ',', ']'] = .ok [] [] := by
  intro s
  have hlist : list s = .ok ["a", "$\x7b"] ['x'] := by decide +kernel
  have hbare : IsBareComma ['[', ',', ']'] := ⟨[], [], .nil, .nil, rfl⟩
  exact ⟨hlist, (list_reads s ['x']).1 _ hlist, hbare, (list_reads _ []).2 _ rfl hbare⟩

/-- A resource file may hold a list that is no list of the grammar. -/
theorem comma_without_string :
    Tree.parse "locale \x7b a = [,] \x7d" >>= Tree.flatten = .ok [("core.locale.a", .list [])] ∧
      ¬ ∀ s rest items, list s = .ok items rest → ∃ p, s = p ++ rest ∧ ListText items p := by
  have hbare : IsBareComma ['[', ',', ']'] := ⟨[], [], .nil, .nil, rfl⟩
  refine ⟨by decide +kernel, fun hall => ?_⟩
  obtain ⟨p, hp, hlist⟩ := hall _ [] [] (hbare.list_eq [])
  rw [List.append_nil, List.append_nil] at hp
  exact hbare.not_listText [] (hp ▸ hlist)

end Phrasebook.Resource
