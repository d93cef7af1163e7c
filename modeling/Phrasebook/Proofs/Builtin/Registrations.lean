import Mathlib.Data.List.Sort
import Mathlib.Data.String.Basic
import Phrasebook.Render.Event
/-!
# Registrations — the last one of a name counts, a language's own before those for all

A table is filled by registrations in any order.  What a name stands for is told from their history
alone, and all that can be asked about a name is told from what it stands for: whether it is known,
where it is listed, and whether a dispatch finds it.
-/
namespace Phrasebook

variable {φ : Type}

inductive Registration (φ : Type) where
  /-- For every language. -/
  | universal (name : String) (f : φ)
  | own (language : Language) (name : String) (f : φ)

namespace Registration

/-- The function that is registered for the name in every language. -/
def universal? (name : String) : Registration φ → Option φ
  | .universal n f => if n = name then some f else none
  | .own _ _ _     => none

/-- The function that is registered for the name in this language only. -/
def own? (name : String) (language : Language) : Registration φ → Option φ
  | .universal _ _ => none
  | .own l n f     => if n = name ∧ l = language then some f else none

/-- Is it a registration of the name, for this language or for every language? -/
def concerns (name : String) (language : Language) : Registration φ → Bool
  | .universal n _ => n = name
  | .own l n _     => n = name ∧ l = language

/-- The last function that is registered for the name in this language, else the last one in every
language. -/
def last? (history : List (Registration φ)) (name : String) (language : Language) : Option φ :=
  (history.filterMap (·.own? name language)).getLast?.or
    (history.filterMap (·.universal? name)).getLast?

variable {name : String} {language : Language}

theorem universal?_if_concerns (r : Registration φ) :
    (if r.concerns name language then r.universal? name else none) = r.universal? name := by
  cases r with
  | universal n f => by_cases h : n = name <;> simp [concerns, universal?, h]
  | own l n f => exact ite_self none

theorem own?_if_concerns (r : Registration φ) :
    (if r.concerns name language then r.own? name language else none) = r.own? name language := by
  cases r with
  | universal n f => exact ite_self none
  | own l n f => by_cases h : n = name ∧ l = language <;> simp [concerns, own?, h]

end Registration

/-! ## Histories -/

namespace Table

def register (t : Table φ) : Registration φ → Table φ
  | .universal name f    => t.insertUniversal name f
  | .own language name f => t.insert language name f

/-- The table after these registrations, the first one first. -/
def ofHistory (history : List (Registration φ)) : Table φ := history.foldl register empty

/-! ### One registration -/

theorem universal_register (name : String) (t : Table φ) (r : Registration φ) :
    (t.register r).universal[name]? = (r.universal? name).or t.universal[name]? := by
  cases r with
  | universal n f =>
    rw [register, insertUniversal, Registration.universal?, Std.TreeMap.getElem?_insert]
    simp only [Std.compare_eq_iff_eq]
    split <;> rfl
  | own l n f => rfl

/-- A language without functions of its own is as good as one with an empty map of them. -/
theorem own?_eq (t : Table φ) (name : String) (language : Language) :
    t.own? name language = (t.own.getD language ∅)[name]? := by
  rw [own?, Std.TreeMap.getD_eq_getD_getElem?]
  cases t.own[language]? with
  | none => exact Std.TreeMap.getElem?_emptyc.symm
  | some functions => rfl

theorem own?_insert (t : Table φ) (l : Language) (n : String) (f : φ) (name : String)
    (language : Language) : (t.insert l n f).own? name language =
      if n = name ∧ l = language then some f else t.own? name language := by
  rw [own?, insert, Std.TreeMap.getElem?_insert]
  simp only [Std.compare_eq_iff_eq]
  by_cases hlanguage : l = language
  · subst l
    rw [if_pos rfl, Option.bind_some, Std.TreeMap.getElem?_insert, own?_eq]
    simp only [Std.compare_eq_iff_eq, and_true]
  · rw [if_neg hlanguage, if_neg fun h => hlanguage h.2, own?]

theorem own?_register (name : String) (language : Language) (t : Table φ) (r : Registration φ) :
    (t.register r).own? name language = (r.own? name language).or (t.own? name language) := by
  cases r with
  | universal n f => rfl
  | own l n f =>
    rw [register, own?_insert, Registration.own?]
    split <;> rfl

/-! ### All registrations -/

/-- What every step may overwrite is in the end what the last step that does so makes of it. -/
theorem foldl_eq_getLast? {σ ρ : Type} {step : σ → ρ → σ} (read : σ → Option φ)
    {written : ρ → Option φ} (h : ∀ s r, read (step s r) = (written r).or (read s)) :
    ∀ (rs : List ρ) (s : σ),
      read (rs.foldl step s) = (rs.filterMap written).getLast?.or (read s)
  | [], _ => rfl
  | r :: rs, s => by
    rw [List.foldl_cons, foldl_eq_getLast? read h rs, h, ← Option.or_assoc]
    cases hr : written r with
    | none => rw [List.filterMap_cons_none hr, Option.or_none]
    | some f =>
      rw [List.filterMap_cons_some hr, List.getLast?_cons]
      cases (rs.filterMap written).getLast? <;> rfl

theorem get?_ofHistory (history : List (Registration φ)) (name : String) (language : Language) :
    (ofHistory history).get? name language = Registration.last? history name language := by
  have hown : (ofHistory history).own? name language =
      (history.filterMap (·.own? name language)).getLast?.or none :=
    foldl_eq_getLast? (fun t => t.own? name language) (own?_register name language) history empty
  have huniversal : (ofHistory history).universal[name]? =
      (history.filterMap (·.universal? name)).getLast?.or none :=
    foldl_eq_getLast? (fun t => t.universal[name]?) (universal_register name) history empty
  rw [get?, hown, huniversal, Option.or_none, Option.or_none, Registration.last?]

theorem get?_ofHistory_filter (history : List (Registration φ)) (name : String)
    (language : Language) :
    (ofHistory (history.filter (·.concerns name language))).get? name language =
      (ofHistory history).get? name language := by
  simp only [get?_ofHistory, Registration.last?, List.filterMap_filter,
    Registration.own?_if_concerns, Registration.universal?_if_concerns]

/-! ## Names -/

theorem mem_listed {t : Table φ} {name : String} {language : Language} :
    name ∈ t.listed language ↔ t.universal[name]?.isSome ∨ (t.own? name language).isSome := by
  unfold listed own?
  cases t.own[language]? with
  | none =>
    rw [Std.TreeMap.mem_keys, Std.TreeMap.mem_iff_isSome_getElem?]
    exact (or_iff_left Bool.false_ne_true).symm
  | some functions =>
    rw [List.mem_append, Std.TreeMap.mem_keys, Std.TreeMap.mem_keys,
      Std.TreeMap.mem_iff_isSome_getElem?, Std.TreeMap.mem_iff_isSome_getElem?, Option.bind_some]

theorem mem_names {t : Table φ} {name : String} {language : Language} :
    name ∈ t.names language ↔ (t.get? name language).isSome := by
  rw [names, mem_dropRepeats, List.mem_mergeSort, mem_listed, get?, Option.isSome_or,
    Bool.or_eq_true, or_comm]

/-- A name of both kinds is listed twice, and left once. -/
theorem pairwise_names (t : Table φ) (language : Language) :
    (t.names language).Pairwise (· < ·) :=
  (pairwise_dropRepeats (fun _ _ => le_antisymm)
    (List.pairwise_mergeSort' (· ≤ ·) (t.listed language))).imp fun h => lt_of_le_of_ne h.1 h.2

end Table

namespace Registry

variable {r : Registry} {name : String} {language : Language}

theorem pairwise_names (r : Registry) (kind : SubjectKind) (language : Language) :
    (r.names kind language).Pairwise (· < ·) := by
  cases kind <;> exact Table.pairwise_names _ language

theorem mem_names_iff_has {kind : SubjectKind} :
    name ∈ r.names kind language ↔ r.has kind name language = true := by
  cases kind <;> exact Table.mem_names

/-! ## Dispatches -/

theorem dispatch_eq_unknown {args : List Value} {subject : Subject} :
    r.dispatch name args subject language = .unknown ↔ r.find? name subject language = none := by
  unfold dispatch
  split
  · simp [*]
  · split <;> simp [*]

/-- The table that a subject selects is the one of its kind. -/
theorem isSome_find? (subject : Subject) :
    (r.find? name subject language).isSome = r.has subject.kind name language := by
  cases subject <;> simp [find?, has, Subject.kind, Table.contains]

theorem dispatch_eq_unknown_iff_has {args : List Value} {subject : Subject} :
    r.dispatch name args subject language = .unknown ↔
      r.has subject.kind name language = false := by
  rw [dispatch_eq_unknown, ← isSome_find?, Option.isSome_eq_false_iff, Option.isNone_iff_eq_none]

theorem hasAny_eq_false :
    r.hasAny name language = false ↔ ∀ kind, r.has kind name language = false := by
  unfold hasAny
  rw [List.any_eq_false]
  constructor
  · intro h kind
    have hmem : kind ∈ SubjectKind.all := by cases kind <;> decide
    simpa using h kind hmem
  · intro h kind _
    simp [h kind]

end Registry

/-! ## Registries from histories -/

/-- An answer is passed on. -/
def Dispatch.ofAnswer : Answer → Dispatch
  | .ok text => .answered text
  | .error e => .rejected e

/-- The registrations in the four tables of a registry. -/
structure Registry.Histories where
  argless   : List (Registration Builtin) := []
  boolean   : List (Registration (BuiltinOn Bool)) := []
  character : List (Registration (BuiltinOn Character)) := []
  item      : List (Registration (BuiltinOn Item)) := []

namespace Registry.Histories

def registry (h : Histories) : Registry :=
  ⟨.ofHistory h.argless, .ofHistory h.boolean, .ofHistory h.character, .ofHistory h.item⟩

/-- The function of the last registration of a name for the kind of a subject, with the subject. -/
def last? (h : Histories) (name : String) (subject : Subject) (language : Language) :
    Option Builtin :=
  match subject with
  | .none        => Registration.last? h.argless name language
  | .bool b      => (Registration.last? h.boolean name language).map (· b)
  | .character c => (Registration.last? h.character name language).map (· c)
  | .item i      => (Registration.last? h.item name language).map (· i)

variable {h : Histories} {name : String} {language : Language}

theorem find?_registry (subject : Subject) :
    h.registry.find? name subject language = h.last? name subject language := by
  cases subject <;> simp only [find?, registry, last?, Table.get?_ofHistory]

theorem dispatch_registry (subject : Subject) (args : List Value) :
    h.registry.dispatch name args subject language =
      ((h.last? name subject language).map fun f => .ofAnswer (f args language)).getD .unknown := by
  rw [dispatch, find?_registry]
  cases h.last? name subject language with
  | none => rfl
  | some f => cases f args language <;> rfl

end Registry.Histories

/-- **The last registration wins**: the last of the name's own in the language, or else the last for
every language; registrations of other names or in other languages make no difference.  The names
are listed in ascending order, each once, and a name that is listed for a kind of subject is one
that the registry knows, and that a dispatch finds.  What a dispatch answers is the answer of the
function that was registered last. -/
theorem Table.last_registration_wins (history : List (Registration φ)) (name : String)
    (language : Language) :
    (ofHistory history).get? name language =
        (history.filterMap (·.own? name language)).getLast?.or
          (history.filterMap (·.universal? name)).getLast? ∧
      (ofHistory (history.filter (·.concerns name language))).get? name language =
        (ofHistory history).get? name language ∧
      ((ofHistory history).names language).Pairwise (· < ·) ∧
      (name ∈ (ofHistory history).names language ↔
        ((ofHistory history).get? name language).isSome) ∧
      (∀ r : Registry,
        (∀ kind, (r.names kind language).Pairwise (· < ·) ∧
          (name ∈ r.names kind language ↔ r.has kind name language = true)) ∧
        (∀ subject args, name ∈ r.names subject.kind language ↔
          r.dispatch name args subject language ≠ .unknown) ∧
        ((∃ kind, name ∈ r.names kind language) ↔ r.hasAny name language = true)) ∧
      ∀ (h : Registry.Histories) (subject : Subject),
        h.registry.has subject.kind name language = (h.last? name subject language).isSome ∧
        ∀ args, h.registry.dispatch name args subject language =
          ((h.last? name subject language).map fun f => .ofAnswer (f args language)).getD
            .unknown := by
  refine ⟨get?_ofHistory history name language, get?_ofHistory_filter history name language,
    pairwise_names _ language, mem_names, fun r => ⟨fun kind =>
      ⟨r.pairwise_names kind language, Registry.mem_names_iff_has⟩, fun subject args => ?_, ?_⟩,
    fun h subject => ⟨?_, h.dispatch_registry subject⟩⟩
  · rw [Registry.mem_names_iff_has, ne_eq, Registry.dispatch_eq_unknown_iff_has, Bool.not_eq_false]
  · simp only [Registry.mem_names_iff_has]
    rw [← not_iff_not, not_exists, Bool.not_eq_true, Registry.hasAny_eq_false]
    simp only [Bool.not_eq_true]
  · rw [← Registry.isSome_find?, Registry.Histories.find?_registry]

end Phrasebook
