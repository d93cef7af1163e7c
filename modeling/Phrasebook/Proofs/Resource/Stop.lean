import Phrasebook.Proofs.Parser.Suffix
import Phrasebook.Proofs.Resource.Block
/-!
# Stops — where the parser of a resource file ends

The parser of a file leaves an end of its text, the whole of which it was given without the byte
order mark.  So a text is what stands in front of the stop, the mark with it, and the rest; an error
about the text lies there (`parse_eq_error`).
-/
namespace Phrasebook.Resource

open Phrasebook.Parser

/-! ## The grammar leaves ends of its text -/

instance suffixed_blockComment : Suffixed blockComment := by
  have hclose : Suffixed (fun s =>
      match behindCommentEnd s with
      | some rest => .ok () rest
      | none      => .failed ⟨false, [], s⟩ : Parser Unit) := by
    constructor
    intro s
    cases h : behindCommentEnd s with
    | none => exact List.suffix_refl s
    | some rest => exact behindCommentEnd_suffix h
  exact suffixed_bind (literal ['/', '*']) _

instance suffixed_gap : Suffixed gap := by
  unfold gap lineComment
  infer_instance

instance suffixed_keptEscape (test : Char → Bool) : Suffixed (keptEscape test) := by
  unfold keptEscape
  infer_instance

instance suffixed_quotedInSpan : Suffixed quotedInSpan := by
  unfold quotedInSpan
  infer_instance

instance suffixed_escapedQuotedInSpan : Suffixed escapedQuotedInSpan := by
  unfold escapedQuotedInSpan
  infer_instance

instance suffixed_spanStep (span : Parser (List Char)) [Suffixed span] :
    Suffixed (spanStep span) := by
  unfold spanStep spanPart
  infer_instance

instance suffixed_span : Suffixed span := suffixed_fix fun _ _ => inferInstance

instance suffixed_stringPiece : Suffixed stringPiece := by
  unfold stringPiece escapedDollar
  infer_instance

theorem suffix_of_joined {s rest cs : List Char} (h : joined stringPiece s = .ok cs rest) :
    rest <:+ s := by
  obtain ⟨pieces, -, hmany⟩ := Reply.map_eq_ok.1 h
  exact suffix_of_ok hmany

instance suffixed_quoted : Suffixed quoted := by
  unfold quoted
  infer_instance

instance suffixed_quotedKey : Suffixed quotedKey where
  rest_suffix s := by
    unfold quotedKey
    cases h : quoted s with
    | failed e => exact suffix_of_failed h
    | ok cs rest =>
      show (if isKey cs = true then Reply.ok cs rest else _).rest <:+ s
      by_cases hkey : isKey cs = true
      · rw [if_pos hkey]
        exact suffix_of_ok h
      · rw [if_neg hkey]
        exact List.suffix_refl s

instance suffixed_key : Suffixed key := by
  unfold key identifier
  infer_instance

instance suffixed_comma : Suffixed comma := by
  unfold comma
  infer_instance

instance suffixed_list : Suffixed list := by
  unfold list listItem
  infer_instance

instance suffixed_number : Suffixed number := by
  unfold number
  infer_instance

instance suffixed_boolean : Suffixed boolean := by
  unfold boolean
  infer_instance

section

variable (block : Parser (List (String × Value))) [Suffixed block]

instance suffixed_value : Suffixed (value block) := by
  unfold value
  infer_instance

instance suffixed_entry : Suffixed (entry block) := by
  unfold entry
  infer_instance

instance suffixed_blockStep : Suffixed (blockStep block) := by
  unfold blockStep
  infer_instance

end

instance suffixed_block : Suffixed block := suffixed_fix fun _ _ => inferInstance

instance suffixed_file : Suffixed file := by
  unfold file
  infer_instance

/-! ## Where the parser of a file stops -/

/-- The text begins with a byte order mark. -/
def IsMarked (text : List Char) : Prop := text.head? = some '\uFEFF'

instance (text : List Char) : Decidable (IsMarked text) :=
  inferInstanceAs (Decidable (text.head? = some '\uFEFF'))

/-- What is left of a text where the parser of resource files stops. -/
def stop (text : List Char) : List Char := (file (withoutMark text)).rest

theorem stop_suffix (text : List Char) : stop text <:+ withoutMark text :=
  Suffixed.rest_suffix (withoutMark text)

theorem withoutMark_suffix (text : List Char) : withoutMark text <:+ text := by
  by_cases hmark : IsMarked text
  · obtain ⟨rest, rfl⟩ := List.head?_eq_some_iff.1 hmark
    exact List.suffix_cons _ rest
  · exact ⟨[], withoutMark_of_head? hmark⟩

theorem exists_front (text : List Char) : ∃ front, text = front ++ stop text := by
  obtain ⟨front, hfront⟩ := (stop_suffix text).trans (withoutMark_suffix text)
  exact ⟨front, hfront.symm⟩

/-- In front of the stop stands the mark, if there is one. -/
theorem front_of_isMarked {text front : List Char} (h : text = front ++ stop text)
    (hmark : IsMarked text) :
    ∃ read, front = '\uFEFF' :: read ∧ withoutMark text = read ++ stop text := by
  obtain ⟨rest, hrest⟩ := List.head?_eq_some_iff.1 hmark
  obtain ⟨read, hread⟩ := stop_suffix text
  refine ⟨read, ?_, hread.symm⟩
  have hwhole : text = '\uFEFF' :: read ++ stop text := by
    rw [List.cons_append, hread, hrest]
    rfl
  exact List.append_cancel_right (h.symm.trans hwhole)

theorem parse_eq_error {text : String} {err : ParseError} (h : Tree.parse text = .error err) :
    ∃ problem, err = .before (withoutMark text.toList) (stop text.toList) problem := by
  unfold Tree.parse at h
  cases hfile : file.runAll (withoutMark text.toList) with
  | ok entries =>
    rw [hfile] at h
    cases h
  | error err' =>
    rw [hfile] at h
    obtain ⟨problem, herr⟩ := runAll_eq_error hfile
    exact ⟨problem, (Except.error.inj h).symm.trans herr⟩

end Phrasebook.Resource
