import Mathlib.Data.List.Induction
import Phrasebook.Text.Position
/-!
# Positions and bytes — from a split of a text to its position and back

The position of a split counts the line feeds in front of it and the characters behind the last of
them.  `byteOffset` walks the text from its start and comes back to the same split, whatever stands
behind it.  So no two splits of a text share a position, and a later one has a later position
(`Position.byteOffset_ofRest`).
-/
namespace Phrasebook.Text

/-! ## Bytes -/

theorem foldl_utf8Size (cs : List Char) (n : Nat) :
    cs.foldl (fun n c => n + c.utf8Size) n = n + byteLength cs := by
  unfold byteLength
  induction cs generalizing n with
  | nil => rfl
  | cons c cs ih => rw [List.foldl_cons, List.foldl_cons, ih, ih (0 + _)]; omega

@[simp] theorem byteLength_nil : byteLength [] = 0 := rfl

@[simp] theorem byteLength_cons (c : Char) (cs : List Char) :
    byteLength (c :: cs) = c.utf8Size + byteLength cs := by
  rw [byteLength, List.foldl_cons, foldl_utf8Size, Nat.zero_add]

@[simp] theorem byteLength_append (cs ds : List Char) :
    byteLength (cs ++ ds) = byteLength cs + byteLength ds := by
  induction cs with
  | nil => simp
  | cons c cs ih => simp [ih, Nat.add_assoc]

theorem byteLength_toList (s : String) : byteLength s.toList = s.utf8ByteSize := by
  have hof : ∀ cs : List Char, byteLength cs = (String.ofList cs).utf8ByteSize := by
    intro cs
    induction cs with
    | nil => rfl
    | cons c cs ih =>
      rw [byteLength_cons, ih, String.ofList_cons, String.utf8ByteSize_append]
      simp
  rw [hof, String.ofList_toList]

theorem byteLength_pos {cs : List Char} (h : cs ≠ []) : 0 < byteLength cs := by
  cases cs with
  | nil => exact absurd rfl h
  | cons c cs =>
    have := c.utf8Size_pos
    simp
    omega

theorem byteLength_dropLast_lt {cs : List Char} (h : cs ≠ []) :
    byteLength cs.dropLast < byteLength cs := by
  have hlast := byteLength_append cs.dropLast [cs.getLast h]
  have hpos := byteLength_pos (List.cons_ne_nil (cs.getLast h) [])
  rw [List.dropLast_concat_getLast] at hlast
  omega

/-! ## Lines and columns -/

/-- The number of characters behind the last line feed. -/
def columns (cs : List Char) : Nat := (cs.reverse.takeWhile (· != '\n')).length

theorem columns_concat (cs : List Char) (c : Char) :
    columns (cs ++ [c]) = if c = '\n' then 0 else columns cs + 1 := by
  by_cases hc : c = '\n' <;> simp [columns, hc]

theorem columns_of_not_mem {cs : List Char} (h : '\n' ∉ cs) : columns cs = cs.length := by
  induction cs using List.reverseRecOn with
  | nil => rfl
  | append_singleton cs c ih =>
    rw [List.mem_append, not_or, List.mem_singleton] at h
    rw [columns_concat, ih h.1, List.length_append, if_neg (Ne.symm h.2)]
    rfl

/-- What stands in front of the last line feed takes no column. -/
theorem columns_cons_of_mem {c : Char} {cs : List Char} (h : '\n' ∈ c :: cs) :
    columns (c :: cs) = columns cs := by
  induction cs using List.reverseRecOn with
  | nil => simp [columns, ← List.mem_singleton.1 h]
  | append_singleton cs d ih =>
    rw [← List.cons_append, columns_concat, columns_concat]
    by_cases hd : d = '\n'
    · rw [if_pos hd, if_pos hd]
    · have hmem : '\n' ∈ c :: cs := by
        rcases List.mem_append.1 (List.cons_append ▸ h) with hmem | hmem
        · exact hmem
        · exact absurd (List.mem_singleton.1 hmem).symm hd
      rw [if_neg hd, if_neg hd, ih hmem]

/-- Where a text begins with `cs`, its line feeds and the columns behind them count its bytes. -/
theorem bytesBefore_columns (cs rest : List Char) :
    bytesBefore (cs.count '\n') (columns cs) (cs ++ rest) = byteLength cs := by
  induction cs with
  | nil => simp [bytesBefore, columns]
  | cons c cs ih =>
    by_cases h : '\n' ∈ c :: cs
    · obtain ⟨lines, hlines⟩ := Nat.exists_eq_add_one.2 (List.count_pos_iff.2 h)
      have hcount : (if c = '\n' then lines else lines + 1) = cs.count '\n' := by
        rw [List.count_cons] at hlines
        by_cases hc : c = '\n' <;> simp [hc] at hlines ⊢ <;> omega
      rw [hlines, columns_cons_of_mem h, List.cons_append, bytesBefore, hcount, ih,
        byteLength_cons]
    · rw [List.count_eq_zero.2 h, columns_of_not_mem h, bytesBefore, List.take_left]

namespace Position

theorem after_concat (cs : List Char) (c : Char) : after (cs ++ [c]) = (after cs).advance c := by
  rw [after, List.foldl_append]
  rfl

/-- A position counts line feeds, and the characters behind the last of them. -/
theorem after_eq (cs : List Char) : after cs = ⟨cs.count '\n' + 1, columns cs + 1⟩ := by
  induction cs using List.reverseRecOn with
  | nil => rfl
  | append_singleton cs c ih =>
    rw [after_concat, ih, advance, columns_concat, List.count_append]
    by_cases hc : c = '\n' <;> simp [hc]

theorem ofRest_append (front rest : List Char) : ofRest (front ++ rest) rest = after front := by
  rw [ofRest, List.length_append, Nat.add_sub_cancel, List.take_left]

/-- The bytes in front of a position are those that were consumed to get there. -/
theorem byteOffset_after (front rest : List Char) :
    byteOffset (front ++ rest) (after front) = byteLength front := by
  rw [byteOffset, after_eq]
  exact bytesBefore_columns front rest

/-- In a text that has one character more at its start, the position lies one character further in
front as long as it is on the first line, and where it was on every other. -/
theorem byteOffset_cons_after {c : Char} (hc : c ≠ '\n') (front rest : List Char) :
    byteOffset (c :: (front ++ rest)) (after front) =
      byteLength (if '\n' ∈ front then c :: front else (c :: front).dropLast) := by
  rw [byteOffset, after_eq]
  by_cases h : '\n' ∈ front
  · obtain ⟨lines, hlines⟩ := Nat.exists_eq_add_one.2 (List.count_pos_iff.2 h)
    have hbytes := bytesBefore_columns front rest
    simp only [hlines, Nat.add_sub_cancel] at hbytes ⊢
    rw [bytesBefore, if_neg hc, hbytes, if_pos h, byteLength_cons]
  · have htake : (c :: (front ++ rest)).take front.length = (c :: front).dropLast := by
      rw [← List.cons_append, List.take_append_of_le_length (by simp), List.dropLast_eq_take]
      rfl
    rw [List.count_eq_zero.2 h, columns_of_not_mem h, if_neg h, ← htake]
    rfl

/-! ## Earlier and later -/

/-- In the order of reading: by lines, and in a line by columns. -/
instance : LT Position := ⟨fun p q => p.line < q.line ∨ p.line = q.line ∧ p.column < q.column⟩

instance (p q : Position) : Decidable (p < q) :=
  inferInstanceAs (Decidable (p.line < q.line ∨ p.line = q.line ∧ p.column < q.column))

theorem lt_def {p q : Position} :
    p < q ↔ p.line < q.line ∨ p.line = q.line ∧ p.column < q.column := Iff.rfl

theorem lt_trans {p q r : Position} (h : p < q) (h' : q < r) : p < r := by
  rw [lt_def] at *
  omega

theorem lt_irrefl (p : Position) : ¬ p < p := by
  simp [lt_def]

theorem ne_of_lt {p q : Position} (h : p < q) : p ≠ q := by
  rintro rfl
  exact lt_irrefl p h

theorem lt_advance (p : Position) (c : Char) : p < p.advance c := by
  rw [lt_def, advance]
  by_cases hc : c = '\n' <;> simp [hc]

theorem after_lt_append (cs : List Char) {ds : List Char} (h : ds ≠ []) :
    after cs < after (cs ++ ds) := by
  induction ds using List.reverseRecOn with
  | nil => exact absurd rfl h
  | append_singleton ds d ih =>
    have hlast : after (cs ++ ds) < after (cs ++ (ds ++ [d])) := by
      rw [← List.append_assoc, after_concat]
      exact lt_advance _ d
    by_cases hds : ds = []
    · rw [hds, List.append_nil] at hlast
      rwa [hds]
    · exact lt_trans (ih hds) hlast

/-- Of two splits of a text one is in front of the other, in bytes and by positions. -/
theorem after_lt_iff {cs ds cs' ds' : List Char} (h : cs ++ ds = cs' ++ ds') :
    (after cs = after cs' ↔ cs = cs') ∧ (after cs < after cs' ↔ byteLength cs < byteLength cs') := by
  have hlonger : ∀ front back : List Char, back ≠ [] →
      after front < after (front ++ back) ∧ byteLength front < byteLength (front ++ back) := by
    intro front back hback
    have hpos := byteLength_pos hback
    exact ⟨after_lt_append front hback, by rw [byteLength_append]; omega⟩
  rcases List.append_eq_append_iff.1 h with ⟨back, rfl, -⟩ | ⟨back, rfl, -⟩
  · by_cases hback : back = []
    · simp [hback, lt_irrefl]
    · obtain ⟨hlt, hbytes⟩ := hlonger cs back hback
      exact ⟨iff_of_false (ne_of_lt hlt) (by simpa using hback), iff_of_true hlt hbytes⟩
  · by_cases hback : back = []
    · simp [hback, lt_irrefl]
    · obtain ⟨hlt, hbytes⟩ := hlonger cs' back hback
      have hlater : ¬ after (cs' ++ back) < after cs' := fun hgt => lt_irrefl _ (lt_trans hlt hgt)
      exact ⟨iff_of_false (ne_of_lt hlt).symm (by simpa using hback),
        iff_of_false hlater (by omega)⟩

/-- **Positions and splits.**  The byte offset of the position of a split is the number of bytes in
front of it.  Two splits of a text have one position only if they are one, and otherwise the later
split has the later position. -/
theorem byteOffset_ofRest {whole front rest : String} (h : front ++ rest = whole) :
    byteOffset whole.toList (ofRest whole.toList rest.toList) = front.utf8ByteSize ∧
    ∀ front' rest' : String, front' ++ rest' = whole →
      (ofRest whole.toList rest.toList = ofRest whole.toList rest'.toList ↔ front = front') ∧
      (ofRest whole.toList rest.toList < ofRest whole.toList rest'.toList ↔
        front.utf8ByteSize < front'.utf8ByteSize) := by
  subst h
  rw [String.toList_append, ofRest_append, byteOffset_after, byteLength_toList]
  refine ⟨rfl, fun front' rest' h' => ?_⟩
  have hlists : front.toList ++ rest.toList = front'.toList ++ rest'.toList := by
    rw [← String.toList_append, ← String.toList_append, h']
  rw [hlists, ofRest_append, ← byteLength_toList, ← byteLength_toList, ← String.toList_inj]
  exact after_lt_iff hlists

/-- Behind the second of two line feeds, and behind the character of three bytes that follows. -/
theorem byteOffset_ofRest_wide :
    byteOffset "é\n\nあ_".toList ⟨3, 1⟩ = 4 ∧ byteOffset "é\n\nあ_".toList ⟨3, 2⟩ = 7 ∧
      (⟨3, 1⟩ : Position) < ⟨3, 2⟩ := by
  have hfront : "é\n\n" ++ "あ_" = "é\n\nあ_" := by decide
  have hfront' : "é\n\nあ" ++ "_" = "é\n\nあ_" := by decide
  obtain ⟨hbytes, hother⟩ := byteOffset_ofRest hfront
  exact ⟨hbytes, (byteOffset_ofRest hfront').1, (hother _ _ hfront').2.2 (by decide)⟩

end Position

end Phrasebook.Text
