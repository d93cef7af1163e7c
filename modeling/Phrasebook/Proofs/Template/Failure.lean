import Phrasebook.Proofs.Parser.Suffix
import Phrasebook.Proofs.Template.Text
/-!
# Texts that do not compile — the grammar of texts is never left

Every text goes on with a piece, so a text that does not compile fails inside a span, and no error is
about text that is left over (`parse_eq_error`).  `text_rec` goes through a text the way its parser
does, whether it compiles or not.
-/
namespace Phrasebook.Template

open Phrasebook.Parser

/-! ## Failures have a place in the text -/

instance suffixed_name : Suffixed name := by
  unfold name
  infer_instance

instance suffixed_blanks : Suffixed blanks := by
  unfold blanks
  infer_instance

instance suffixed_positional : Suffixed positional := by
  unfold positional
  infer_instance

instance suffixed_number : Suffixed number := by
  have hvalue : ∀ n : Numeral, Suffixed (match n.places, n.toInt64? with
      | some _, _      => pure (.float n.toDouble)
      | none,   some k => pure (.int k)
      | none,   none   => abort : Parser Arg) := by
    intro n
    split <;> infer_instance
  unfold number
  infer_instance

instance suffixed_boolean : Suffixed boolean := by
  unfold boolean
  infer_instance

instance suffixed_stringLiteral : Suffixed stringLiteral := by
  unfold stringLiteral stringChar
  infer_instance

instance suffixed_closeSpan : Suffixed closeSpan := by
  unfold closeSpan
  infer_instance

instance suffixed_argument (call : Parser Call) [Suffixed call] : Suffixed (argument call) := by
  unfold argument wrappedCall
  infer_instance

instance suffixed_arguments (call : Parser Call) [Suffixed call] : Suffixed (arguments call) := by
  unfold arguments comma
  infer_instance

instance suffixed_callStep (call : Parser Call) [Suffixed call] : Suffixed (callStep call) := by
  unfold callStep
  infer_instance

instance suffixed_call : Suffixed call := suffixed_fix fun _ _ => inferInstance

instance suffixed_span : Suffixed span := by
  unfold span
  infer_instance

instance suffixed_piece : Suffixed piece := by
  unfold piece
  infer_instance

/-- A span fails behind its opener. -/
theorem suffix_of_span_failed {s : List Char} {e : Failure} (h : span (opener ++ s) = .failed e) :
    e.rest <:+ s := by
  unfold span at h
  simp only [expecting, bind_of_ok (literal_append opener s)] at h
  split at h
  · cases h
  · rename_i e' he'
    cases h
    have hrest := suffix_of_failed he'
    exact hrest

/-! ## Every text goes on -/

/-- What holds of every text is shown by the ways a text may begin. -/
theorem text_rec {P : List Char → Prop} (nil : P [])
    (plain : ∀ c s, c ≠ '$' → P s → P (c :: s))
    (escaped : ∀ s, P s → P ('$' :: '$' :: '{' :: s))
    (dollar : ∀ s, Lone s → P s → P ('$' :: s))
    (span : ∀ s rest node, span ('$' :: '{' :: s) = .ok node rest → P rest → P ('$' :: '{' :: s))
    (failed : ∀ s e, Template.span ('$' :: '{' :: s) = .failed e → P ('$' :: '{' :: s))
    (s : List Char) : P s := by
  rcases opening_cases s with rfl | ⟨c, t, rfl, hc⟩ | ⟨t, rfl⟩ | ⟨t, rfl⟩ | ⟨t, rfl, ht⟩
  · exact nil
  · exact plain c t hc (text_rec nil plain escaped dollar span failed t)
  · exact escaped t (text_rec nil plain escaped dollar span failed t)
  · cases hspan : Template.span ('$' :: '{' :: t) with
    | ok node rest =>
      have hlt := Consumes.length_lt hspan
      exact span t rest node hspan (text_rec nil plain escaped dollar span failed rest)
    | failed e => exact failed t e hspan
  · exact dollar t ht (text_rec nil plain escaped dollar span failed t)
termination_by s.length
decreasing_by all_goals subst_vars; simp_all <;> omega

theorem rest_of_nodesBehind {held s rest : List Char} {nodes : List Node}
    (h : nodesBehind held s = .ok nodes rest) : rest = [] := by
  induction s using text_rec generalizing held nodes with
  | nil =>
    rw [nodesBehind_nil] at h
    cases h
    rfl
  | plain c s hc ih =>
    rw [nodesBehind_plain hc] at h
    exact ih h
  | escaped s ih =>
    rw [nodesBehind_escapedOpener] at h
    exact ih h
  | dollar s hs ih =>
    rw [nodesBehind_dollar hs] at h
    exact ih h
  | span s rest' node hspan ih =>
    rw [nodesBehind_span hspan, Reply.map_eq_ok] at h
    obtain ⟨nodes', -, h⟩ := h
    exact ih h
  | failed s e hspan =>
    rw [nodesBehind_of_span_failed hspan] at h
    cases h

theorem suffix_of_nodesBehind_failed {held s : List Char} {e : Failure}
    (h : nodesBehind held s = .failed e) : e.rest <:+ s :=
  suffix_of_failed (Reply.map_eq_failed.1 h)

/-- A text that does not compile fails, and where it does there is nothing in front of the failure
that the grammar has no use for. -/
theorem parse_eq_error {text : String} {err : ParseError} :
    Expression.parse text = .error err ↔ ∃ e, nodesBehind [] text.toList = .failed e ∧
      err = .before text.toList e.rest (.refused e.expected) := by
  have hrest := @rest_of_nodesBehind [] text.toList
  unfold Expression.parse runAll
  unfold nodesBehind at hrest ⊢
  cases hmany : many piece text.toList with
  | ok pieces rest =>
    rw [hmany] at hrest
    obtain rfl := hrest rfl
    constructor
    · intro h; cases h
    · rintro ⟨_, h, _⟩; cases h
  | failed e =>
    constructor
    · intro h; cases h; exact ⟨e, rfl, rfl⟩
    · rintro ⟨_, h, rfl⟩; cases h; rfl

end Phrasebook.Template
