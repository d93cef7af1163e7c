import Phrasebook.Proofs.Parser.Soft
/-!
# Running out — failures at the end of the text

A parser runs out of text where it fails with nothing left.  What it was about to read is told by its
parts: in a sequence by the part that failed, in a choice by the last way or by a firm one, in a
repetition by the round that did not end.
-/
namespace Phrasebook.Parser

variable {α β : Type} {p q : Parser α} {firm : Bool} {s : List Char}

/-- The parser fails at the end of the text, firmly or softly. -/
def RunsOut (p : Parser α) (firm : Bool) (s : List Char) : Prop :=
  ∃ e, p s = .failed e ∧ e.firm = firm ∧ e.rest = []

theorem not_runsOut_of_ok {rest : List Char} {a : α} (h : p s = .ok a rest) :
    ¬ RunsOut p firm s := by
  rintro ⟨e, he, -, -⟩
  rw [h] at he
  cases he

theorem runsOut_of_failed {e : Failure} (h : p s = .failed e) :
    RunsOut p firm s ↔ e.firm = firm ∧ e.rest = [] := by
  constructor
  · rintro ⟨e', he', hfail⟩
    rw [h] at he'
    cases he'
    exact hfail
  · exact fun hfail => ⟨e, h, hfail⟩

/-- A soft parser does not end the parse, and so does not at the end of the text. -/
theorem not_runsOut_of_soft [Soft p] : ¬ RunsOut p true s := by
  rintro ⟨e, he, hfirm, -⟩
  rw [Soft.firm_eq he] at hfirm
  cases hfirm

/-! ## Sequences and choices -/

theorem runsOut_abort : RunsOut (abort : Parser α) firm s ↔ firm = true ∧ s = [] := by
  have habort : (abort : Parser α) s = .failed ⟨true, [], s⟩ := rfl
  rw [runsOut_of_failed habort, eq_comm]

theorem not_runsOut_pure {a : α} : ¬ RunsOut (pure a : Parser α) firm s := not_runsOut_of_ok rfl

theorem runsOut_bind {f : α → Parser β} :
    RunsOut (p >>= f) firm s ↔
      RunsOut p firm s ∨ ∃ a mid, p s = .ok a mid ∧ RunsOut (f a) firm mid := by
  cases hps : p s with
  | ok a mid =>
    have hbind : RunsOut (p >>= f) firm s ↔ RunsOut (f a) firm mid := by
      unfold RunsOut
      rw [bind_of_ok hps]
    rw [hbind]
    constructor
    · exact fun h => .inr ⟨a, mid, rfl, h⟩
    · rintro (h | ⟨_, _, ⟨⟩, h⟩)
      · exact absurd h (not_runsOut_of_ok hps)
      · exact h
  | failed e =>
    have hbind : (p >>= f) s = .failed e := by rw [bind_apply, hps]
    rw [runsOut_of_failed hbind, runsOut_of_failed hps]
    simp

theorem runsOut_commit : RunsOut (commit p) firm s ↔ firm = true ∧ ∃ f, RunsOut p f s := by
  cases hps : p s with
  | ok a rest =>
    have hok : ¬ RunsOut (commit p) firm s := not_runsOut_of_ok (commit_eq_ok.2 hps)
    have hnone : ∀ f, ¬ RunsOut p f s := fun f => not_runsOut_of_ok hps
    simp [hok, hnone]
  | failed e =>
    have hcommit : commit p s = .failed { e with firm := true } := by rw [commit, hps]
    rw [runsOut_of_failed hcommit]
    simp [runsOut_of_failed hps, eq_comm]

theorem runsOut_expecting {x : Expectation} :
    RunsOut (expecting x p) firm s ↔ RunsOut p firm s := by
  cases hps : p s with
  | ok a rest =>
    have hok : ¬ RunsOut (expecting x p) firm s := not_runsOut_of_ok (expecting_eq_ok.2 hps)
    simp [hok, not_runsOut_of_ok hps]
  | failed e =>
    have hfails : expecting x p s = .failed { e with expected := e.expected ++ [x] } := by
      rw [expecting, hps]
    rw [runsOut_of_failed hfails, runsOut_of_failed hps]

theorem not_runsOut_of_refuses (h : Refuses p s) : ¬ RunsOut p true s := by
  rintro ⟨e, he, hfirm, -⟩
  obtain ⟨_, he', hsoft⟩ := h
  rw [he] at he'
  cases he'
  rw [hfirm] at hsoft
  cases hsoft

theorem runsOut_orElse :
    RunsOut (p <|> q) firm s ↔
      (firm = true ∧ RunsOut p true s) ∨ Refuses p s ∧ RunsOut q firm s := by
  by_cases hr : Refuses p s
  · have hq : RunsOut (p <|> q) firm s ↔ RunsOut q firm s := by
      unfold RunsOut
      rw [orElse_of_refuses hr]
    simp [hq, hr, not_runsOut_of_refuses hr]
  · cases hps : p s with
    | ok a rest =>
      have hok : ¬ RunsOut (p <|> q) firm s := not_runsOut_of_ok (orElse_of_ok hps q)
      simp [hok, hr, not_runsOut_of_ok hps]
    | failed e =>
      have hfirm := firm_of_not_refuses hps hr
      have hchoice : (p <|> q) s = .failed e := by
        rw [orElse_apply, hps]
        simp [hfirm]
      rw [runsOut_of_failed hchoice, runsOut_of_failed hps]
      simp [hfirm, hr, eq_comm]

theorem runsOut_optional : RunsOut (optional p) firm s ↔ firm = true ∧ RunsOut p true s := by
  by_cases hr : Refuses p s
  · have hok : ¬ RunsOut (optional p) firm s := not_runsOut_of_ok (optional_of_refuses hr)
    simp [hok, not_runsOut_of_refuses hr]
  · cases hps : p s with
    | ok a rest =>
      have hok : ¬ RunsOut (optional p) firm s :=
        not_runsOut_of_ok (optional_eq_ok.2 (.inl ⟨a, rfl, hps⟩))
      simp [hok, not_runsOut_of_ok hps]
    | failed e =>
      have hfirm := firm_of_not_refuses hps hr
      have hoptional : optional p s = .failed e := by
        rw [optional, hps]
        simp [hfirm]
      rw [runsOut_of_failed hoptional, runsOut_of_failed hps]
      simp [hfirm, eq_comm]

/-! ## Characters -/

theorem runsOut_pick {table : Char → Option α} :
    RunsOut (pick table) firm s ↔ firm = false ∧ s = [] := by
  cases s with
  | nil =>
    have hpick : pick table [] = .failed ⟨false, [], []⟩ := rfl
    simp [runsOut_of_failed hpick, eq_comm]
  | cons c s =>
    have hpick : ¬ RunsOut (pick table) firm (c :: s) := by
      rintro ⟨e, he, -, hrest⟩
      rw [pick] at he
      cases hc : table c with
      | some a => rw [hc] at he; cases he
      | none => rw [hc] at he; cases he; cases hrest
    simp [hpick]

theorem runsOut_satisfy {test : Char → Bool} :
    RunsOut (satisfy test) firm s ↔ firm = false ∧ s = [] := runsOut_pick

theorem runsOut_char {c : Char} : RunsOut (char c) firm s ↔ firm = false ∧ s = [] := runsOut_pick

/-! ## Repetitions -/

/-- What a repetition has in front of it where it runs out: rounds, and then one that runs out and
ends the parse. -/
theorem runsOut_many_rec [Consumes p] {P : List Char → Prop} (last : ∀ s, RunsOut p true s → P s)
    (round : ∀ s a mid, p s = .ok a mid → P mid → P s) {s : List Char}
    (h : RunsOut (many p) firm s) : P s := by
  cases hps : p s with
  | ok a mid =>
    have hlt : mid.length < s.length := Consumes.length_lt hps
    have hmid : RunsOut (many p) firm mid := by
      obtain ⟨e, he, hfail⟩ := h
      rw [many_of_ok hps, Reply.map_eq_failed] at he
      exact ⟨e, he, hfail⟩
    exact round s a mid hps (runsOut_many_rec last round hmid)
  | failed e =>
    have hfirm := firm_of_not_refuses hps fun hr => not_runsOut_of_ok (many_of_refuses hr) h
    rw [runsOut_of_failed (many_of_firm hps hfirm)] at h
    exact last s ((runsOut_of_failed hps).2 ⟨hfirm, h.2⟩)
termination_by s.length

theorem not_runsOut_many_of_soft [Soft p] : ¬ RunsOut (many p) firm s := by
  obtain ⟨as, rest, hok⟩ := exists_manyWithin p s [] s
  exact not_runsOut_of_ok hok

/-- A list of items runs out in its first item, or behind it. -/
theorem runsOut_sepBy {item : Parser α} {separator : Parser β}
    (h : RunsOut (sepBy item separator) firm s) :
    RunsOut item true s ∨ ∃ a mid, item s = .ok a mid ∧
      RunsOut (many (do let _ ← separator; item)) firm mid := by
  unfold sepBy at h
  rcases runsOut_bind.1 h with h | ⟨o, mid, ho, h⟩
  · exact .inl (runsOut_optional.1 h).2
  · rcases optional_eq_ok.1 ho with ⟨a, rfl, ha⟩ | ⟨-, rfl, rfl⟩
    · rcases runsOut_bind.1 h with h | ⟨others, rest, -, h⟩
      · exact .inr ⟨a, mid, ha, h⟩
      · exact absurd h not_runsOut_pure
    · exact absurd h not_runsOut_pure

end Phrasebook.Parser
