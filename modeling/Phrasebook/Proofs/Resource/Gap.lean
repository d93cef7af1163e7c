import Phrasebook.Proofs.Text.Class
import Phrasebook.Proofs.Parser.Progress
import Phrasebook.Resource.Grammar
/-!
# Gaps — blanks and comments leave no trace

`Gap` says which texts may stand between the tokens of a resource file.  In front of any text a gap
is skipped to its end (`gap_append`), so what stands behind it is read as if it stood alone.
-/
namespace Phrasebook.Resource

open Phrasebook.Parser

/-! ## Pieces of a gap -/

def gapPiece : Parser Unit :=
  (do let _ ← takeSome Text.isBlank) <|> lineComment <|> blockComment

theorem behindCommentEnd_suffix {s rest : List Char} (h : behindCommentEnd s = some rest) :
    rest <:+ s := by
  fun_induction behindCommentEnd s with
  | case1 => cases h
  | case2 rest' =>
    cases h
    exact ⟨['*', '/'], rfl⟩
  | case3 c s _ ih => exact (ih h).trans (List.suffix_cons c s)

instance consumes_lineComment : Consumes lineComment := by
  unfold lineComment
  infer_instance

theorem blockComment_eq_ok {s rest : List Char} {u : Unit} : blockComment s = .ok u rest ↔
    ∃ body, s = '/' :: '*' :: body ∧ behindCommentEnd body = some rest := by
  constructor
  · intro h
    obtain ⟨_, mid, hopen, hclose⟩ := bind_eq_ok.1 h
    obtain rfl := literal_eq_ok.1 hopen
    cases hb : behindCommentEnd mid with
    | none => rw [hb] at hclose; cases hclose
    | some rest' => rw [hb] at hclose; cases hclose; exact ⟨mid, rfl, hb⟩
  · rintro ⟨body, rfl, hb⟩
    exact bind_eq_ok.2 ⟨(), body, literal_eq_ok.2 rfl, by rw [hb]⟩

instance consumes_blockComment : Consumes blockComment where
  length_lt h := by
    obtain ⟨body, rfl, hb⟩ := blockComment_eq_ok.1 h
    have := (behindCommentEnd_suffix hb).length_le
    simp only [List.length_cons]
    omega

instance consumes_gapPiece : Consumes gapPiece := by
  unfold gapPiece
  infer_instance

instance shrinks_gap : Shrinks gap := by
  show Shrinks (do let _ ← many gapPiece)
  infer_instance

theorem gap_of_ok {s rest : List Char} (h : gapPiece s = .ok () rest) : gap s = gap rest := by
  show (many gapPiece >>= fun _ => pure ()) s = (many gapPiece >>= fun _ => pure ()) rest
  rw [bind_apply, bind_apply, many_of_ok h]
  cases many gapPiece rest <;> rfl

theorem gap_of_refuses {s : List Char} (h : Refuses gapPiece s) : gap s = .ok () s :=
  bind_of_ok (many_of_refuses h) _

/-! ## What a gap begins with -/

def isGapStart (c : Char) : Bool := Text.isBlank c || c == '#' || c == '/'

theorem gap_of_stops {s : List Char} (h : Stops isGapStart s) : gap s = .ok () s := by
  have hblank : Stops Text.isBlank s := h.imp fun c hc => by rw [isGapStart, hc]; rfl
  have hfirst : ∀ (c : Char) (text : List Char), isGapStart c = true → ¬ c :: text <+: s := by
    rintro c text hc ⟨t, rfl⟩
    have := h c rfl
    rw [hc] at this
    cases this
  have hline : Refuses lineComment s :=
    ((refuses_literal (hfirst '#' _ rfl)).orElse (refuses_literal (hfirst '/' _ rfl))).bind _
  exact gap_of_refuses <| ((refuses_takeSome hblank).bind _).orElse <| hline.orElse <|
    (refuses_literal (hfirst '/' _ rfl)).bind _

/-! ## Blanks and comments -/

theorem gapPiece_blank {c : Char} (hc : Text.isBlank c = true) (s : List Char) :
    gapPiece (c :: s) = .ok () (s.dropWhile Text.isBlank) := by
  have hrun : takeSome Text.isBlank (c :: s) =
      .ok (c :: s.takeWhile Text.isBlank) (s.dropWhile Text.isBlank) := by
    simp [takeSome, hc]
  exact orElse_of_ok (bind_pure_of_ok hrun fun _ => ()) _

/-- A run of blanks may be skipped one at a time. -/
theorem gap_blank {c : Char} (hc : Text.isBlank c = true) (s : List Char) :
    gap (c :: s) = gap s := by
  rw [gap_of_ok (gapPiece_blank hc s)]
  cases s with
  | nil => rfl
  | cons d s =>
    cases hd : Text.isBlank d with
    | true => rw [List.dropWhile_cons_of_pos hd, gap_of_ok (gapPiece_blank hd s)]
    | false => rw [List.dropWhile_cons_of_neg (by rw [hd]; exact Bool.false_ne_true)]

/-- What opens a comment that ends with its line. -/
def OpensLine (o : List Char) : Prop := o = ['#'] ∨ o = ['/', '/']

theorem gapPiece_line {o body s : List Char} (ho : OpensLine o) (hbody : '\n' ∉ body)
    (hs : Stops (· != '\n') s) : gapPiece (o ++ body ++ s) = .ok () s := by
  have hopen : (literal ['#'] <|> literal ['/', '/'] : Parser Unit) (o ++ (body ++ s)) =
      .ok () (body ++ s) := by
    rcases ho with rfl | rfl
    · exact orElse_of_ok (literal_append ['#'] _) _
    · exact (orElse_of_refuses (refuses_literal (not_cons_prefix_cons (by decide) [] _)) _).trans
        (literal_append ['/', '/'] _)
  have hrest : takeWhile (· != '\n') (body ++ s) = .ok body s :=
    takeWhile_append (fun c hc => bne_iff_ne.2 fun h => hbody (h ▸ hc)) hs
  have hline : lineComment (o ++ (body ++ s)) = .ok () s := by
    unfold lineComment
    rw [bind_of_ok hopen, bind_of_ok hrest]
    rfl
  have hblank : Stops Text.isBlank (o ++ (body ++ s)) := by
    rcases ho with rfl | rfl
    · exact stops_cons.2 (by decide)
    · exact stops_cons.2 (by decide)
  unfold gapPiece
  rw [List.append_assoc, orElse_of_refuses ((refuses_takeSome hblank).bind _)]
  exact orElse_of_ok hline _

theorem gap_line {o body : List Char} (ho : OpensLine o) (hbody : '\n' ∉ body) (s : List Char) :
    gap (o ++ body ++ '\n' :: s) = gap s := by
  rw [gap_of_ok (gapPiece_line ho hbody (stops_cons.2 rfl)), gap_blank (by decide)]

/-- A comment at the end of a file needs no line feed. -/
theorem gap_lastLine {o body : List Char} (ho : OpensLine o) (hbody : '\n' ∉ body) :
    gap (o ++ body) = .ok () [] := by
  have h := gapPiece_line ho hbody (stops_nil _)
  rw [List.append_nil] at h
  rw [gap_of_ok h, gap_of_stops (stops_nil _)]

theorem behindCommentEnd_append : ∀ {body : List Char}, ¬ ['*', '/'] <:+: body → ∀ s,
    behindCommentEnd (body ++ '*' :: '/' :: s) = some s
  | [], _, s => by rw [List.nil_append, behindCommentEnd]
  | c :: body, hbody, s => by
    have htail : ¬ ['*', '/'] <:+: body := fun h =>
      hbody (h.trans (List.suffix_cons c body).isInfix)
    have hhead : ∀ rest, c = '*' → body ++ '*' :: '/' :: s ≠ '/' :: rest := by
      rintro rest rfl h
      cases body with
      | nil => cases h
      | cons d body =>
        injection h with hd _
        exact hbody ⟨[], body, by rw [hd]; rfl⟩
    rw [List.cons_append, behindCommentEnd, behindCommentEnd_append htail]
    exact hhead

theorem gap_block {body : List Char} (hbody : ¬ ['*', '/'] <:+: body) (s : List Char) :
    gap ('/' :: '*' :: body ++ '*' :: '/' :: s) = gap s := by
  refine gap_of_ok ?_
  have hcomment : blockComment ('/' :: '*' :: (body ++ '*' :: '/' :: s)) = .ok () s :=
    blockComment_eq_ok.2 ⟨_, rfl, behindCommentEnd_append hbody s⟩
  have hline : Refuses lineComment ('/' :: '*' :: (body ++ '*' :: '/' :: s)) := by
    refine ((refuses_literal ?_).orElse (refuses_literal ?_)).bind _
    · exact not_cons_prefix_cons (by decide) [] _
    · exact fun h => not_cons_prefix_cons (by decide) [] _ (List.cons_prefix_cons.1 h).2
  unfold gapPiece
  rw [List.cons_append, List.cons_append,
    orElse_of_refuses ((refuses_takeSome (stops_cons.2 (by decide))).bind _),
    orElse_of_refuses hline]
  exact hcomment

/-! ## Gaps -/

/-- Blanks and complete comments. -/
inductive Gap : List Char → Prop
  | nil : Gap []
  | blank {c : Char} {g : List Char} : Text.isBlank c = true → Gap g → Gap (c :: g)
  | line {o body g : List Char} : OpensLine o → '\n' ∉ body → Gap g → Gap (o ++ body ++ '\n' :: g)
  | block {body g : List Char} : ¬ ['*', '/'] <:+: body → Gap g →
      Gap ('/' :: '*' :: body ++ '*' :: '/' :: g)

/-- **A gap is skipped**, whatever stands behind it. -/
theorem gap_append {g : List Char} (h : Gap g) (s : List Char) : gap (g ++ s) = gap s := by
  induction h with
  | nil => rfl
  | blank hc _ ih => rw [List.cons_append, gap_blank hc, ih]
  | line ho hbody _ ih => rw [List.append_assoc, List.cons_append, gap_line ho hbody, ih]
  | block hbody _ ih =>
    rw [List.append_assoc]
    exact (gap_block hbody _).trans ih

theorem gap_append_token {g s : List Char} (h : Gap g) (hs : Stops isGapStart s) :
    gap (g ++ s) = .ok () s := (gap_append h s).trans (gap_of_stops hs)

/-- What a gap and the token behind it begin with. -/
theorem Gap.stops {g s : List Char} (h : Gap g) {test : Char → Bool}
    (htest : ∀ c, isGapStart c = true → test c = false) (hs : g = [] → Stops test s) :
    Stops test (g ++ s) := by
  cases h with
  | nil => exact hs rfl
  | @blank c _ hc _ => exact stops_cons.2 (htest c (by rw [isGapStart, hc]; rfl))
  | line ho _ _ =>
    rcases ho with rfl | rfl
    · exact stops_cons.2 (htest '#' rfl)
    · exact stops_cons.2 (htest '/' rfl)
  | block _ _ => exact stops_cons.2 (htest '/' rfl)

/-! ## What is skipped -/

theorem lineComment_eq_ok {s rest : List Char} {u : Unit} (h : lineComment s = .ok u rest) :
    ∃ o body, OpensLine o ∧ '\n' ∉ body ∧ s = o ++ body ++ rest ∧ Stops (· != '\n') rest := by
  obtain ⟨_, mid, hopen, hbody⟩ := bind_eq_ok.1 h
  obtain ⟨body, rest', hrun, hpure⟩ := bind_eq_ok.1 hbody
  obtain ⟨-, rfl⟩ := pure_eq_ok.1 hpure
  obtain ⟨rfl, hline, hstops⟩ := takeWhile_eq_ok.1 hrun
  have hnotMem : '\n' ∉ body := fun hmem => absurd (hline _ hmem) (by decide)
  obtain hopen | ⟨-, hopen⟩ := orElse_eq_ok.1 hopen
  · obtain rfl := literal_eq_ok.1 hopen
    exact ⟨['#'], body, .inl rfl, hnotMem, (List.append_assoc _ _ _).symm, hstops⟩
  · obtain rfl := literal_eq_ok.1 hopen
    exact ⟨['/', '/'], body, .inr rfl, hnotMem, (List.append_assoc _ _ _).symm, hstops⟩

theorem behindCommentEnd_eq_some {s rest : List Char} (h : behindCommentEnd s = some rest) :
    ∃ body, ¬ ['*', '/'] <:+: body ∧ s = body ++ '*' :: '/' :: rest := by
  fun_induction behindCommentEnd s with
  | case1 => cases h
  | case2 rest' =>
    cases h
    exact ⟨[], by simp, rfl⟩
  | case3 c s hopen ih =>
    obtain ⟨body, hbody, rfl⟩ := ih h
    refine ⟨c :: body, fun hinfix => ?_, rfl⟩
    obtain hprefix | hinfix := List.infix_cons_iff.1 hinfix
    · obtain ⟨rfl, t, rfl⟩ := List.cons_prefix_cons.1 hprefix
      exact hopen _ rfl rfl
    · exact hbody hinfix

theorem Gap.blanks {cs g : List Char} (hcs : ∀ c ∈ cs, Text.isBlank c = true) (h : Gap g) :
    Gap (cs ++ g) := by
  induction cs with
  | nil => exact h
  | cons c cs ih =>
    rw [List.forall_mem_cons] at hcs
    exact .blank hcs.1 (ih hcs.2)

theorem Gap.of_lineFeed {g : List Char} (h : Gap ('\n' :: g)) : Gap g := by
  generalize hcs : '\n' :: g = cs at h
  cases h with
  | nil => cases hcs
  | blank _ h =>
    cases hcs
    exact h
  | line ho _ _ => rcases ho with rfl | rfl <;> cases hcs
  | block _ _ => cases hcs

/-- What is skipped in front of more text is a gap: a comment that ends with its line leaves the
line feed, which is skipped with what follows. -/
theorem gap_of_many : ∀ {us : List Unit} {s rest : List Char},
    many gapPiece s = .ok us rest → rest ≠ [] →
      Stops Text.isBlank rest ∧ ∃ g, Gap g ∧ s = g ++ rest
  | [], s, rest, h, _ => by
    obtain ⟨hrefuses, rfl⟩ := many_eq_ok_nil.1 h
    refine ⟨fun c hc => ?_, [], .nil, rfl⟩
    obtain ⟨s', rfl⟩ := List.head?_eq_some_iff.1 hc
    rw [← Bool.not_eq_true]
    exact fun hblank => hrefuses.ne_ok _ _ (gapPiece_blank hblank s')
  | u :: us, s, rest, h, hrest => by
    obtain ⟨mid, hpiece, hmany⟩ := many_eq_ok_cons.1 h
    obtain ⟨hstops, g, hg, rfl⟩ := gap_of_many hmany hrest
    refine ⟨hstops, ?_⟩
    obtain hblanks | ⟨-, hline | ⟨-, hblock⟩⟩ : _ ∨ _ ∧ (_ ∨ _ ∧ _) := by
      simpa only [gapPiece, orElse_eq_ok] using hpiece
    · obtain ⟨cs, _, hrun, hpure⟩ := bind_eq_ok.1 hblanks
      obtain ⟨-, rfl⟩ := pure_eq_ok.1 hpure
      obtain ⟨-, rfl, hcs, -⟩ := takeSome_eq_ok.1 hrun
      exact ⟨cs ++ g, hg.blanks hcs, (List.append_assoc _ _ _).symm⟩
    · obtain ⟨o, body, ho, hbody, rfl, hfeed⟩ := lineComment_eq_ok hline
      cases g with
      | nil =>
        obtain ⟨c, rest', rfl⟩ := List.exists_cons_of_ne_nil hrest
        rw [List.nil_append, stops_cons] at hfeed
        obtain rfl : c = '\n' := by simpa using hfeed
        cases stops_cons.1 hstops
      | cons c g =>
        rw [List.cons_append, stops_cons] at hfeed
        obtain rfl : c = '\n' := by simpa using hfeed
        exact ⟨o ++ body ++ '\n' :: g, .line ho hbody hg.of_lineFeed, by simp⟩
    · obtain ⟨inner, rfl, hclose⟩ := blockComment_eq_ok.1 hblock
      obtain ⟨body, hbody, rfl⟩ := behindCommentEnd_eq_some hclose
      exact ⟨'/' :: '*' :: body ++ '*' :: '/' :: g, .block hbody hg, by simp⟩

theorem gap_sound {s rest : List Char} {u : Unit} (h : gap s = .ok u rest) (hrest : rest ≠ []) :
    ∃ g, Gap g ∧ s = g ++ rest := by
  obtain ⟨us, _, hmany, hpure⟩ := bind_eq_ok.1 h
  obtain ⟨-, rfl⟩ := pure_eq_ok.1 hpure
  exact (gap_of_many hmany hrest).2

end Phrasebook.Resource
