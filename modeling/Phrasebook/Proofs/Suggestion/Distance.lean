import Mathlib.Order.Bounds.Basic
import Mathlib.Order.MinMax
import Phrasebook.Suggestion
/-!
# Edit distance — the table holds the least number of edits

The rows of the table grow at the ends of the two texts.  Read from behind, an entry is a distance
by recursion on two lists, of which `editDistance` is the last one.  That this recursion counts the
least number of edits does not depend on the end from which the texts are read.
-/
namespace Phrasebook

/-! ## Edits -/

/-- One character of a text is inserted, deleted or replaced. -/
inductive Edit : List Char → List Char → Prop
  | insert (front : List Char) (c : Char) (back : List Char) :
    Edit (front ++ back) (front ++ c :: back)
  | delete (front : List Char) (c : Char) (back : List Char) :
    Edit (front ++ c :: back) (front ++ back)
  | replace (front : List Char) (c d : Char) (back : List Char) :
    Edit (front ++ c :: back) (front ++ d :: back)

/-- So many edits turn one text into the other. -/
inductive Edits : Nat → List Char → List Char → Prop
  | done (xs : List Char) : Edits 0 xs xs
  | step {n : Nat} {xs ys zs : List Char} (h : Edit xs ys) (rest : Edits n ys zs) :
    Edits (n + 1) xs zs

theorem Edit.cons (c : Char) {xs ys : List Char} (h : Edit xs ys) : Edit (c :: xs) (c :: ys) := by
  cases h with
  | insert front d back => exact .insert (c :: front) d back
  | delete front d back => exact .delete (c :: front) d back
  | replace front d e back => exact .replace (c :: front) d e back

theorem Edit.reverse {xs ys : List Char} (h : Edit xs ys) : Edit xs.reverse ys.reverse := by
  cases h with
  | insert front c back =>
    simpa using Edit.insert back.reverse c front.reverse
  | delete front c back =>
    simpa using Edit.delete back.reverse c front.reverse
  | replace front c d back =>
    simpa using Edit.replace back.reverse c d front.reverse

theorem Edits.cons (c : Char) {n : Nat} {xs ys : List Char} (h : Edits n xs ys) :
    Edits n (c :: xs) (c :: ys) := by
  induction h with
  | done xs => exact .done (c :: xs)
  | step h _ ih => exact .step (h.cons c) ih

theorem Edits.reverse {n : Nat} {xs ys : List Char} (h : Edits n xs ys) :
    Edits n xs.reverse ys.reverse := by
  induction h with
  | done xs => exact .done xs.reverse
  | step h _ ih => exact .step h.reverse ih

/-! ## The distance by recursion -/

def distance : List Char → List Char → Nat
  | [], ys           => ys.length
  | _ :: xs, []      => xs.length + 1
  | x :: xs, y :: ys =>
    min (min (distance (x :: xs) ys + 1) (distance xs (y :: ys) + 1))
      (distance xs ys + if x = y then 0 else 1)

section

variable {c d : Char} {xs ys : List Char}

theorem distance_cons_cons_le_insert :
    distance (c :: xs) (d :: ys) ≤ distance (c :: xs) ys + 1 := by
  rw [distance]
  omega

theorem distance_cons_cons_le_delete :
    distance (c :: xs) (d :: ys) ≤ distance xs (d :: ys) + 1 := by
  rw [distance]
  omega

theorem distance_cons_cons_le_replace : distance (c :: xs) (d :: ys) ≤ distance xs ys + 1 := by
  rw [distance]
  split <;> omega

/-- An edit in front of the texts, or none, and the rest. -/
theorem distance_cons_cons_cases :
    distance (c :: xs) (d :: ys) = distance (c :: xs) ys + 1 ∨
      distance (c :: xs) (d :: ys) = distance xs (d :: ys) + 1 ∨
      distance (c :: xs) (d :: ys) = distance xs ys + (if c = d then 0 else 1) := by
  rw [distance]
  omega

theorem distance_nil_right : ∀ xs, distance xs [] = xs.length
  | []     => by rw [distance]
  | _ :: _ => by rw [distance, List.length_cons]

theorem distance_self : ∀ xs, distance xs xs = 0
  | []      => by rw [distance, List.length_nil]
  | x :: xs => by
    have h := distance_self xs
    rw [distance, h, if_pos rfl]
    omega

end

/-! ### Enough edits -/

/-- As many edits as the distance are enough. -/
theorem edits_distance : ∀ xs ys, Edits (distance xs ys) xs ys
  | [], [] => by
    rw [distance]
    exact .done []
  | [], y :: ys => by
    have h := edits_distance [] ys
    rw [distance] at h ⊢
    exact .step (.insert [] y []) (h.cons y)
  | x :: xs, [] => by
    have h := edits_distance xs []
    rw [distance_nil_right] at h ⊢
    exact .step (.delete [] x xs) h
  | x :: xs, y :: ys => by
    rcases @distance_cons_cons_cases x y xs ys with h | h | h
    · rw [h]
      exact .step (.insert [] y (x :: xs)) ((edits_distance (x :: xs) ys).cons y)
    · rw [h]
      exact .step (.delete [] x xs) (edits_distance xs (y :: ys))
    · rw [h]
      by_cases hxy : x = y
      · rw [if_pos hxy, hxy]
        exact (edits_distance xs ys).cons y
      · rw [if_neg hxy]
        exact .step (.replace [] x y xs) ((edits_distance xs ys).cons y)

/-! ### No fewer edits

An edit brings a text nearer to any third one by one at most. -/

theorem distance_delete_le (c : Char) (xs : List Char) :
    ∀ zs, distance (c :: xs) zs ≤ distance xs zs + 1
  | []     => by rw [distance_nil_right, distance_nil_right, List.length_cons]
  | _ :: _ => distance_cons_cons_le_delete

theorem distance_cons_right_le (z : Char) (zs : List Char) :
    ∀ xs, distance xs (z :: zs) ≤ distance xs zs + 1
  | []     => by rw [distance, distance, List.length_cons]
  | _ :: _ => distance_cons_cons_le_insert

theorem distance_insert_le (c : Char) (xs : List Char) :
    ∀ zs, distance xs zs ≤ distance (c :: xs) zs + 1
  | []      => by
    rw [distance_nil_right, distance_nil_right, List.length_cons]
    omega
  | z :: zs => by
    have ih := distance_insert_le c xs zs
    have hz := distance_cons_right_le z zs xs
    rcases @distance_cons_cons_cases c z xs zs with h | h | h <;> omega

theorem distance_replace_le (c d : Char) (xs : List Char) :
    ∀ zs, distance (c :: xs) zs ≤ distance (d :: xs) zs + 1
  | []      => by
    rw [distance_nil_right, distance_nil_right, List.length_cons, List.length_cons]
    omega
  | z :: zs => by
    have ih := distance_replace_le c d xs zs
    have hinsert := @distance_cons_cons_le_insert c z xs zs
    have hdelete := @distance_cons_cons_le_delete c z xs zs
    have hreplace := @distance_cons_cons_le_replace c z xs zs
    rcases @distance_cons_cons_cases d z xs zs with h | h | h <;> omega

/-- A character in front of both texts does not make an edit behind it worth more. -/
theorem distance_cons_le (c : Char) {xs ys : List Char}
    (h : ∀ zs, distance xs zs ≤ distance ys zs + 1) :
    ∀ zs, distance (c :: xs) zs ≤ distance (c :: ys) zs + 1
  | []      => by
    have hnil := h []
    rw [distance_nil_right, distance_nil_right] at hnil ⊢
    rw [List.length_cons, List.length_cons]
    omega
  | z :: zs => by
    have ih := distance_cons_le c h zs
    have hzs := h zs
    have hz := h (z :: zs)
    have hinsert := @distance_cons_cons_le_insert c z xs zs
    have hdelete := @distance_cons_cons_le_delete c z xs zs
    have hreplace : distance (c :: xs) (z :: zs) ≤ distance xs zs + (if c = z then 0 else 1) := by
      rw [distance]
      omega
    rcases @distance_cons_cons_cases c z ys zs with h | h | h <;> omega

theorem distance_append_le {xs ys : List Char} (h : ∀ zs, distance xs zs ≤ distance ys zs + 1) :
    ∀ front zs, distance (front ++ xs) zs ≤ distance (front ++ ys) zs + 1
  | []         => h
  | c :: front => distance_cons_le c (distance_append_le h front)

theorem Edit.distance_le {xs ys : List Char} (h : Edit xs ys) (zs : List Char) :
    distance xs zs ≤ distance ys zs + 1 := by
  cases h with
  | insert front c back => exact distance_append_le (distance_insert_le c back) front zs
  | delete front c back => exact distance_append_le (distance_delete_le c back) front zs
  | replace front c d back => exact distance_append_le (distance_replace_le c d back) front zs

theorem Edits.distance_le {n : Nat} {xs ys : List Char} (h : Edits n xs ys) :
    distance xs ys ≤ n := by
  induction h with
  | done xs => exact (distance_self xs).le
  | step h _ ih => exact (h.distance_le _).trans (Nat.succ_le_succ ih)

/-! ## The table -/

/-- The distances from `p` to `q`, and to `q` with more and more of `ys` read on. -/
def distances (p q : List Char) : List Char → List Nat
  | []      => [distance p q]
  | y :: ys => distance p q :: distances p (y :: q) ys

theorem distances_eq_cons (p q : List Char) : ∀ ys,
    distances p q ys = distance p q :: (distances p q ys).tail
  | []     => rfl
  | _ :: _ => rfl

theorem distances_nil : ∀ q ys, distances [] q ys = List.range' q.length (ys.length + 1)
  | q, []      => by
    rw [distances, distance]
    rfl
  | q, y :: ys => by
    have ih := distances_nil (y :: q) ys
    rw [distances, distance, ih, List.length_cons, List.length_cons]
    exact List.range'_succ.symm

theorem nextRow_distances (x : Char) (p : List Char) : ∀ q ys,
    nextRow x (distance (x :: p) q) (distance p q) ys (distances p q ys).tail =
      (distances (x :: p) q ys).tail
  | _, []      => rfl
  | q, y :: ys => by
    have ih := nextRow_distances x p (y :: q) ys
    have hentry : min (min (distance (x :: p) q + 1) (distance p (y :: q) + 1))
        (distance p q + if x = y then 0 else 1) = distance (x :: p) (y :: q) := by
      rw [distance]
    rw [distances, List.tail_cons, distances_eq_cons p, distances, List.tail_cons,
      distances_eq_cons (x :: p), nextRow, hentry, ih]

theorem rowBehind_distances (x : Char) (p ys : List Char) :
    rowBehind ys (distances p [] ys) x = distances (x :: p) [] ys := by
  have hfirst : distance p [] + 1 = distance (x :: p) [] := by
    rw [distance_nil_right, distance_nil_right, List.length_cons]
  rw [distances_eq_cons p, rowBehind, hfirst, nextRow_distances, ← distances_eq_cons]

theorem foldl_rowBehind (ys : List Char) : ∀ xs p : List Char,
    xs.foldl (rowBehind ys) (distances p [] ys) = distances (xs.reverse ++ p) [] ys
  | [], _      => rfl
  | x :: xs, p => by
    rw [List.foldl_cons, rowBehind_distances, foldl_rowBehind ys xs, List.reverse_cons,
      List.append_assoc, List.singleton_append]

theorem getLast?_distances (p : List Char) : ∀ q ys : List Char,
    (distances p q ys).getLast? = some (distance p (ys.reverse ++ q))
  | _, []      => rfl
  | q, y :: ys => by
    rw [distances, List.getLast?_cons, getLast?_distances p (y :: q) ys, List.reverse_cons,
      List.append_assoc, List.singleton_append]
    rfl

theorem editDistance_eq_distance (xs ys : List Char) :
    editDistance xs ys = distance xs.reverse ys.reverse := by
  have hfirst : List.range (ys.length + 1) = distances [] [] ys := by
    rw [distances_nil, List.range_eq_range']
    rfl
  rw [editDistance, hfirst, foldl_rowBehind, getLast?_distances, List.append_nil, List.append_nil]
  rfl

/-- **The edit distance is the least number of edits** that turn one text into the other. -/
theorem editDistance_isLeast (xs ys : List Char) :
    IsLeast {n | Edits n xs ys} (editDistance xs ys) := by
  rw [editDistance_eq_distance]
  constructor
  · have h := (edits_distance xs.reverse ys.reverse).reverse
    rwa [List.reverse_reverse, List.reverse_reverse] at h
  · intro n h
    exact (Edits.reverse h).distance_le

end Phrasebook
