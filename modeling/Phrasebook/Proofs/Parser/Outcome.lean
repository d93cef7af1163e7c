import Phrasebook.Parser.Lemmas
/-!
# Outcomes — when a combinator succeeds, and when it gives way

A proof about a grammar reads its parsers in one of two directions.  Given a success, the lemmas
`…_eq_ok` say what its parts answered.  Given a text, the lemmas `…_append` and `…_cons` run a part
over a known beginning, and `Refuses` is all that a choice or a repetition wants to know of a part
that does not fit: it fails, softly.
-/
namespace Phrasebook.Parser

variable {α β : Type}

/-! ## Successes -/

theorem pure_eq_ok {a b : α} {s rest : List Char} :
    (pure a : Parser α) s = .ok b rest ↔ a = b ∧ s = rest := by
  constructor
  · intro h; cases h; exact ⟨rfl, rfl⟩
  · rintro ⟨rfl, rfl⟩; rfl

theorem bind_eq_ok {p : Parser α} {f : α → Parser β} {s rest : List Char} {b : β} :
    (p >>= f) s = .ok b rest ↔ ∃ a mid, p s = .ok a mid ∧ f a mid = .ok b rest := by
  rw [bind_apply]
  cases p s with
  | ok a mid =>
    constructor
    · intro h; exact ⟨a, mid, rfl, h⟩
    · rintro ⟨_, _, h, h'⟩; cases h; exact h'
  | failed e =>
    constructor
    · intro h; cases h
    · rintro ⟨_, _, h, _⟩; cases h

theorem bind_of_ok {p : Parser α} {s mid : List Char} {a : α} (h : p s = .ok a mid)
    (f : α → Parser β) : (p >>= f) s = f a mid := by
  rw [bind_apply, h]

theorem bind_pure_of_ok {p : Parser α} {s rest : List Char} {a : α} (h : p s = .ok a rest)
    (f : α → β) : (do let x ← p; pure (f x) : Parser β) s = .ok (f a) rest := bind_of_ok h _

theorem commit_eq_ok {p : Parser α} {s rest : List Char} {a : α} :
    commit p s = .ok a rest ↔ p s = .ok a rest := by
  unfold commit
  cases p s with
  | ok a' rest' => rfl
  | failed e => exact ⟨fun h => (nomatch h), fun h => (nomatch h)⟩

theorem expecting_eq_ok {x : Expectation} {p : Parser α} {s rest : List Char} {a : α} :
    expecting x p s = .ok a rest ↔ p s = .ok a rest := by
  unfold expecting
  cases p s with
  | ok a' rest' => rfl
  | failed e => exact ⟨fun h => (nomatch h), fun h => (nomatch h)⟩

theorem peek_eq_ok {p : Parser α} {s rest : List Char} {u : Unit} :
    peek p s = .ok u rest ↔ (∃ a mid, p s = .ok a mid) ∧ s = rest := by
  unfold peek
  cases p s with
  | ok a mid => exact ⟨fun h => by cases h; exact ⟨⟨a, mid, rfl⟩, rfl⟩, fun h => by rw [h.2]⟩
  | failed e => exact ⟨fun h => (nomatch h), fun ⟨⟨_, _, h⟩, _⟩ => (nomatch h)⟩

theorem peek_of_ok {p : Parser α} {s mid : List Char} {a : α} (h : p s = .ok a mid) :
    peek p s = .ok () s := peek_eq_ok.2 ⟨⟨a, mid, h⟩, rfl⟩

theorem fail_ne_ok {s rest : List Char} {a : α} : (fail : Parser α) s ≠ .ok a rest := by
  intro h; cases h

theorem abort_ne_ok {s rest : List Char} {a : α} : (abort : Parser α) s ≠ .ok a rest := by
  intro h; cases h

/-! ## Refusals -/

/-- The parser fails softly. -/
def Refuses (p : Parser α) (s : List Char) : Prop := ∃ e, p s = .failed e ∧ e.firm = false

theorem Refuses.ne_ok {p : Parser α} {s : List Char} (h : Refuses p s) (a : α)
    (rest : List Char) : p s ≠ .ok a rest := by
  obtain ⟨e, he, _⟩ := h
  rw [he]
  exact nofun

theorem firm_of_not_refuses {p : Parser α} {s : List Char} {e : Failure} (h : p s = .failed e)
    (hr : ¬ Refuses p s) : e.firm = true := by
  cases hfirm : e.firm with
  | true => rfl
  | false => exact absurd ⟨e, h, hfirm⟩ hr

theorem orElse_apply (p q : Parser α) (s : List Char) :
    (p <|> q) s = match p s with
      | .ok a rest => .ok a rest
      | .failed e  => if e.firm then .failed e else q s := rfl

theorem orElse_of_ok {p : Parser α} {s rest : List Char} {a : α} (h : p s = .ok a rest)
    (q : Parser α) : (p <|> q) s = .ok a rest := by
  rw [orElse_apply, h]

theorem orElse_of_refuses {p : Parser α} {s : List Char} (h : Refuses p s) (q : Parser α) :
    (p <|> q) s = q s := by
  obtain ⟨e, he, hf⟩ := h
  rw [orElse_apply, he]
  simp [hf]

/-- A choice succeeds with its first way, or with its second where the first gives way. -/
theorem orElse_eq_ok {p q : Parser α} {s rest : List Char} {a : α} :
    (p <|> q) s = .ok a rest ↔ p s = .ok a rest ∨ Refuses p s ∧ q s = .ok a rest := by
  rw [orElse_apply]
  unfold Refuses
  cases p s with
  | ok a' rest' => simp
  | failed e => cases hf : e.firm <;> simp [hf]

theorem optional_eq_ok {p : Parser α} {s rest : List Char} {o : Option α} :
    optional p s = .ok o rest ↔
      (∃ a, o = some a ∧ p s = .ok a rest) ∨ Refuses p s ∧ o = none ∧ s = rest := by
  unfold optional Refuses
  cases p s with
  | ok a rest' =>
    constructor
    · intro h; cases h; exact .inl ⟨a, rfl, rfl⟩
    · rintro (⟨_, rfl, h⟩ | ⟨⟨_, h, _⟩, _⟩)
      · cases h; rfl
      · cases h
  | failed e =>
    cases hf : e.firm
    · simp only [hf, Bool.false_eq_true, if_false]
      constructor
      · intro h; cases h; exact .inr ⟨⟨e, rfl, hf⟩, rfl, rfl⟩
      · rintro (⟨_, _, h⟩ | ⟨_, rfl, rfl⟩)
        · cases h
        · rfl
    · simp only [hf, if_true]
      constructor
      · intro h; cases h
      · rintro (⟨_, _, h⟩ | ⟨⟨_, h, h'⟩, _⟩)
        · cases h
        · cases h; rw [hf] at h'; cases h'

theorem optional_of_refuses {p : Parser α} {s : List Char} (h : Refuses p s) :
    optional p s = .ok none s := optional_eq_ok.2 (.inr ⟨h, rfl, rfl⟩)

theorem Refuses.bind {p : Parser α} {s : List Char} (h : Refuses p s) (f : α → Parser β) :
    Refuses (p >>= f) s := by
  obtain ⟨e, he, hf⟩ := h
  exact ⟨e, by rw [bind_apply, he], hf⟩

theorem refuses_bind_of_ok {p : Parser α} {f : α → Parser β} {s mid : List Char} {a : α}
    (h : p s = .ok a mid) (hf : Refuses (f a) mid) : Refuses (p >>= f) s := by
  obtain ⟨e, he, hs⟩ := hf
  exact ⟨e, by rw [bind_of_ok h, he], hs⟩

theorem Refuses.expecting {p : Parser α} {s : List Char} (h : Refuses p s) (x : Expectation) :
    Refuses (expecting x p) s := by
  obtain ⟨e, he, hf⟩ := h
  exact ⟨{ e with expected := e.expected ++ [x] }, by rw [Parser.expecting, he], hf⟩

theorem Refuses.peek {p : Parser α} {s : List Char} (h : Refuses p s) : Refuses (peek p) s := by
  obtain ⟨e, he, hf⟩ := h
  exact ⟨{ e with rest := s }, by rw [Parser.peek, he], hf⟩

theorem Refuses.orElse {p q : Parser α} {s : List Char} (hp : Refuses p s) (hq : Refuses q s) :
    Refuses (p <|> q) s := by
  obtain ⟨e, he, hf⟩ := hq
  exact ⟨e, by rw [orElse_of_refuses hp, he], hf⟩

theorem refuses_optional_bind {p : Parser α} {f : Option α → Parser β} {s : List Char}
    (hp : Refuses p s) (hf : Refuses (f none) s) : Refuses (optional p >>= f) s :=
  refuses_bind_of_ok (optional_of_refuses hp) hf

/-! ## Characters -/

/-- The first character, if there is one, fails the test. -/
def Stops (test : Char → Bool) (s : List Char) : Prop := ∀ c ∈ s.head?, test c = false

@[simp] theorem stops_nil (test : Char → Bool) : Stops test [] := fun c hc => by cases hc

@[simp] theorem stops_cons {test : Char → Bool} {c : Char} {s : List Char} :
    Stops test (c :: s) ↔ test c = false := by
  simp [Stops]

theorem Stops.imp {test test' : Char → Bool} {s : List Char}
    (h : ∀ c, test' c = true → test c = true) (hs : Stops test s) : Stops test' s := by
  intro c hc
  have := hs c hc
  rw [Bool.eq_false_iff] at this ⊢
  exact fun h' => this (h c h')

theorem pick_eq_ok {table : Char → Option α} {s rest : List Char} {a : α} :
    pick table s = .ok a rest ↔ ∃ c, table c = some a ∧ s = c :: rest := by
  cases s with
  | nil => simp [pick]
  | cons c s =>
    simp only [pick, List.cons.injEq]
    cases hc : table c with
    | none => exact ⟨fun h => (nomatch h), fun ⟨_, h, h', _⟩ => by subst h'; rw [hc] at h; cases h⟩
    | some b =>
      constructor
      · intro h; cases h; exact ⟨c, hc, rfl, rfl⟩
      · rintro ⟨_, h, rfl, rfl⟩; rw [hc] at h; cases h; rfl

theorem satisfy_eq_ok {test : Char → Bool} {s rest : List Char} {c : Char} :
    satisfy test s = .ok c rest ↔ test c = true ∧ s = c :: rest := by
  unfold satisfy
  rw [pick_eq_ok]
  constructor
  · rintro ⟨d, hd, rfl⟩
    split at hd <;> cases hd
    exact ⟨‹_›, rfl⟩
  · rintro ⟨hc, rfl⟩
    exact ⟨c, by simp [hc], rfl⟩

theorem char_eq_ok {c d : Char} {s rest : List Char} :
    char c s = .ok d rest ↔ d = c ∧ s = c :: rest := by
  unfold char
  rw [satisfy_eq_ok, beq_iff_eq]
  constructor
  · rintro ⟨rfl, rfl⟩; exact ⟨rfl, rfl⟩
  · rintro ⟨rfl, rfl⟩; exact ⟨rfl, rfl⟩

theorem satisfy_cons {test : Char → Bool} {c : Char} (hc : test c = true) (s : List Char) :
    satisfy test (c :: s) = .ok c s := satisfy_eq_ok.2 ⟨hc, rfl⟩

theorem char_cons (c : Char) (s : List Char) : char c (c :: s) = .ok c s := char_eq_ok.2 ⟨rfl, rfl⟩

theorem refuses_pick {table : Char → Option α} {s : List Char}
    (h : ∀ c ∈ s.head?, table c = none) : Refuses (pick table) s := by
  cases s with
  | nil => exact ⟨_, rfl, rfl⟩
  | cons c s => exact ⟨_, by rw [pick, h c rfl], rfl⟩

theorem refuses_satisfy {test : Char → Bool} {s : List Char} (h : Stops test s) :
    Refuses (satisfy test) s :=
  refuses_pick fun c hc => by simp [h c hc]

theorem refuses_char {c : Char} {s : List Char} (h : s.head? ≠ some c) : Refuses (char c) s := by
  refine refuses_satisfy fun d hd => ?_
  rw [beq_eq_false_iff_ne]
  rintro rfl
  exact h hd

theorem isPrefixOf?_eq_some : ∀ {text s rest : List Char},
    text.isPrefixOf? s = some rest ↔ s = text ++ rest
  | [], s, rest => by
    show some s = some rest ↔ s = rest
    rw [Option.some.injEq]
  | c :: text, [], rest => by
    show (none : Option (List Char)) = some rest ↔ [] = c :: (text ++ rest)
    constructor <;> intro h <;> cases h
  | c :: text, d :: s, rest => by
    show (if c == d then text.isPrefixOf? s else none) = some rest ↔ d :: s = c :: (text ++ rest)
    rw [List.cons.injEq, ← isPrefixOf?_eq_some]
    by_cases h : c = d
    · rw [if_pos (beq_iff_eq.2 h)]
      simp only [h, true_and]
    · rw [if_neg (by rw [beq_iff_eq]; exact h)]
      constructor
      · intro h'; cases h'
      · intro h'; exact absurd h'.1.symm h

theorem literal_eq_ok {text s rest : List Char} {u : Unit} :
    literal text s = .ok u rest ↔ s = text ++ rest := by
  unfold literal
  rw [← isPrefixOf?_eq_some]
  cases text.isPrefixOf? s with
  | none => exact ⟨fun h => (nomatch h), fun h => (nomatch h)⟩
  | some rest' =>
    constructor
    · intro h; cases h; rfl
    · intro h; cases h; rfl

theorem literal_append (text s : List Char) : literal text (text ++ s) = .ok () s :=
  literal_eq_ok.2 rfl

theorem refuses_literal {text s : List Char} (h : ¬ text <+: s) : Refuses (literal text) s := by
  cases hp : text.isPrefixOf? s with
  | none => exact ⟨⟨false, [], s⟩, by simp only [literal, hp], rfl⟩
  | some rest => exact absurd ⟨rest, (isPrefixOf?_eq_some.1 hp).symm⟩ h

theorem not_cons_prefix_cons {c d : Char} (h : c ≠ d) (text s : List Char) :
    ¬ d :: text <+: c :: s := fun hp => h (List.cons_prefix_cons.1 hp).1.symm

theorem notNext_eq_ok {test : Char → Bool} {s rest : List Char} {u : Unit} :
    notNext test s = .ok u rest ↔ Stops test s ∧ s = rest := by
  cases s with
  | nil => exact ⟨fun h => by cases h; exact ⟨stops_nil _, rfl⟩, fun h => by rw [← h.2]; rfl⟩
  | cons c s =>
    simp only [notNext, stops_cons]
    cases hc : test c with
    | false => exact ⟨fun h => by cases h; exact ⟨rfl, rfl⟩, fun h => by rw [← h.2]; rfl⟩
    | true => exact ⟨fun h => (nomatch h), fun h => (nomatch h.1)⟩

theorem notNext_of_stops {test : Char → Bool} {s : List Char} (h : Stops test s) :
    notNext test s = .ok () s := notNext_eq_ok.2 ⟨h, rfl⟩

theorem refuses_notNext {test : Char → Bool} {c : Char} (hc : test c = true) (s : List Char) :
    Refuses (notNext test) (c :: s) := ⟨_, by rw [notNext, if_pos hc], rfl⟩

/-! ## Runs of characters -/

theorem takeWhile_append {test : Char → Bool} {cs s : List Char} (hcs : ∀ c ∈ cs, test c = true)
    (hs : Stops test s) : takeWhile test (cs ++ s) = .ok cs s := by
  have h : s.takeWhile test = [] ∧ s.dropWhile test = s := by
    cases s with
    | nil => exact ⟨rfl, rfl⟩
    | cons c s => rw [stops_cons] at hs; simp [hs]
  unfold takeWhile
  rw [List.takeWhile_append_of_pos hcs, List.dropWhile_append_of_pos hcs, h.1, h.2,
    List.append_nil]

theorem takeWhile_eq_ok {test : Char → Bool} {s rest cs : List Char} :
    takeWhile test s = .ok cs rest ↔
      s = cs ++ rest ∧ (∀ c ∈ cs, test c = true) ∧ Stops test rest := by
  constructor
  · intro h
    cases h
    refine ⟨List.takeWhile_append_dropWhile.symm, List.all_eq_true.1 List.all_takeWhile, ?_⟩
    intro c hc
    have := List.head?_dropWhile_not test s
    rw [hc] at this
    simpa using this
  · rintro ⟨rfl, hcs, hs⟩
    exact takeWhile_append hcs hs

theorem takeSome_apply (test : Char → Bool) (s : List Char) :
    takeSome test s = if s.takeWhile test = [] then .failed ⟨false, [], s⟩
      else .ok (s.takeWhile test) (s.dropWhile test) := by
  unfold takeSome
  cases s.takeWhile test <;> rfl

theorem takeSome_eq_ok {test : Char → Bool} {s rest cs : List Char} :
    takeSome test s = .ok cs rest ↔
      cs ≠ [] ∧ s = cs ++ rest ∧ (∀ c ∈ cs, test c = true) ∧ Stops test rest := by
  rw [takeSome_apply, ← takeWhile_eq_ok, takeWhile]
  split
  · rename_i h
    exact ⟨fun h' => (nomatch h'), fun h' => by rw [h] at h'; cases h'.2; exact absurd rfl h'.1⟩
  · rename_i h
    exact ⟨fun h' => ⟨by cases h'; exact h, h'⟩, fun h' => h'.2⟩

theorem takeSome_append {test : Char → Bool} {cs s : List Char} (hne : cs ≠ [])
    (hcs : ∀ c ∈ cs, test c = true) (hs : Stops test s) : takeSome test (cs ++ s) = .ok cs s :=
  takeSome_eq_ok.2 ⟨hne, rfl, hcs, hs⟩

theorem refuses_takeSome {test : Char → Bool} {s : List Char} (h : Stops test s) :
    Refuses (takeSome test) s := by
  have hw : s.takeWhile test = [] := by
    cases s with
    | nil => rfl
    | cons c s => rw [stops_cons] at h; simp [h]
  exact ⟨_, by rw [takeSome_apply, if_pos hw], rfl⟩

/-! ## Repetitions -/

def Reply.map (f : α → β) : Reply α → Reply β
  | .ok a rest => .ok (f a) rest
  | .failed e  => .failed e

@[simp] theorem Reply.map_ok (f : α → β) (a : α) (rest : List Char) :
    (Reply.ok a rest).map f = .ok (f a) rest := rfl

theorem Reply.map_eq_ok {f : α → β} {r : Reply α} {b : β} {rest : List Char} :
    r.map f = .ok b rest ↔ ∃ a, f a = b ∧ r = .ok a rest := by
  cases r with
  | ok a rest' =>
    constructor
    · intro h; cases h; exact ⟨a, rfl, rfl⟩
    · rintro ⟨_, rfl, h⟩; cases h; rfl
  | failed e =>
    constructor
    · intro h; cases h
    · rintro ⟨_, _, h⟩; cases h

theorem Reply.map_eq_failed {f : α → β} {r : Reply α} {e : Failure} :
    r.map f = .failed e ↔ r = .failed e := by
  cases r with
  | ok a rest =>
    constructor
    · intro h; cases h
    · intro h; cases h
  | failed e' =>
    constructor
    · intro h; cases h; rfl
    · rintro ⟨⟩; rfl

theorem Reply.map_map {γ : Type} (g : β → γ) (f : α → β) (r : Reply α) :
    (r.map f).map g = r.map fun a => g (f a) := by
  cases r <;> rfl

theorem Reply.map_congr {f g : α → β} (h : ∀ a, f a = g a) (r : Reply α) : r.map f = r.map g := by
  rw [funext h]

theorem many_of_ok {p : Parser α} [Consumes p] {s mid : List Char} {a : α}
    (h : p s = .ok a mid) : many p s = (many p mid).map (a :: ·) := by
  rw [many_eq p, h]
  simp only
  cases many p mid <;> rfl

theorem many_of_refuses {p : Parser α} [Consumes p] {s : List Char} (h : Refuses p s) :
    many p s = .ok [] s := by
  obtain ⟨e, he, hf⟩ := h
  rw [many_eq p, he]
  simp [hf]

theorem many_of_firm {p : Parser α} [Consumes p] {s : List Char} {e : Failure}
    (h : p s = .failed e) (hf : e.firm = true) : many p s = .failed e := by
  rw [many_eq p, h]
  simp [hf]

theorem many_eq_ok_nil {p : Parser α} [Consumes p] {s rest : List Char} :
    many p s = .ok [] rest ↔ Refuses p s ∧ s = rest := by
  constructor
  · intro h
    cases hps : p s with
    | ok a mid =>
      rw [many_of_ok hps, Reply.map_eq_ok] at h
      obtain ⟨_, h, _⟩ := h
      cases h
    | failed e =>
      cases hf : e.firm
      · have hr : Refuses p s := ⟨e, hps, hf⟩
        rw [many_of_refuses hr] at h
        cases h
        exact ⟨hr, rfl⟩
      · rw [many_of_firm hps hf] at h
        cases h
  · rintro ⟨h, rfl⟩
    exact many_of_refuses h

theorem many_eq_ok_cons {p : Parser α} [Consumes p] {s rest : List Char} {a : α}
    {as : List α} :
    many p s = .ok (a :: as) rest ↔ ∃ mid, p s = .ok a mid ∧ many p mid = .ok as rest := by
  constructor
  · intro h
    cases hps : p s with
    | ok a' mid =>
      rw [many_of_ok hps, Reply.map_eq_ok] at h
      obtain ⟨as', h, hm⟩ := h
      cases h
      exact ⟨mid, rfl, hm⟩
    | failed e =>
      cases hf : e.firm
      · rw [many_of_refuses ⟨e, hps, hf⟩] at h
        cases h
      · rw [many_of_firm hps hf] at h
        cases h
  · rintro ⟨mid, hps, hm⟩
    rw [many_of_ok hps, hm, Reply.map_ok]

theorem sepBy_of_refuses {item : Parser α} {separator : Parser β} {s : List Char}
    (h : Refuses item s) : sepBy item separator s = .ok [] s := by
  unfold sepBy
  rw [bind_of_ok (optional_of_refuses h)]
  rfl

theorem sepBy_of_ok {item : Parser α} {separator : Parser β} {s mid : List Char} {a : α}
    (h : item s = .ok a mid) : sepBy item separator s =
      (many (do let _ ← separator; item) mid).map (a :: ·) := by
  unfold sepBy
  rw [bind_of_ok (optional_eq_ok.2 (.inl ⟨a, rfl, h⟩))]
  exact bind_apply _ _ _

/-- A first item, and then as many separators with an item behind them as there are. -/
theorem sepBy_eq_ok {item : Parser α} {separator : Parser β} {s rest : List Char}
    {as : List α} :
    sepBy item separator s = .ok as rest ↔
      (Refuses item s ∧ as = [] ∧ s = rest) ∨
      ∃ a others mid, as = a :: others ∧ item s = .ok a mid ∧
        many (do let _ ← separator; item) mid = .ok others rest := by
  unfold sepBy
  rw [bind_eq_ok]
  constructor
  · rintro ⟨o, mid, ho, h⟩
    obtain ⟨a, rfl, ha⟩ | ⟨hr, rfl, rfl⟩ := optional_eq_ok.1 ho
    · obtain ⟨others, mid', hm, h⟩ := bind_eq_ok.1 h
      obtain ⟨rfl, rfl⟩ := pure_eq_ok.1 h
      exact .inr ⟨a, others, mid, rfl, ha, hm⟩
    · obtain ⟨rfl, rfl⟩ := pure_eq_ok.1 h
      exact .inl ⟨hr, rfl, rfl⟩
  · rintro (⟨hr, rfl, rfl⟩ | ⟨a, others, mid, rfl, ha, hm⟩)
    · exact ⟨none, s, optional_of_refuses hr, rfl⟩
    · exact ⟨some a, mid, optional_eq_ok.2 (.inl ⟨a, rfl, ha⟩), bind_eq_ok.2 ⟨_, _, hm, rfl⟩⟩

end Phrasebook.Parser
