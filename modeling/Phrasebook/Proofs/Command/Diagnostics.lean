import Phrasebook.Command.Check
import Phrasebook.Proofs.Except
import Phrasebook.Proofs.Resource.Stop
import Phrasebook.Proofs.Text.Position
/-!
# Diagnostics — the byte that a parse error is shown at

A resource file is parsed without the byte order mark at its start, and a diagnostic is about the
file with it.  On every line but the first both count alike, and so they do where there is no mark.
On the first line of a marked file a diagnostic points one character in front of where the parser
stopped (`Command.checkFile_offset`).
-/
namespace Phrasebook

open Text (byteLength)

theorem Diagnostic.positionOf_before (text rest : List Char) (problem : Problem) :
    positionOf (.before text rest problem) = .ofRest text rest := by
  cases rest <;> rfl

namespace Command

open Resource

theorem checkFile_of_error {path : String} {bytes : ByteArray} {text : String} {e : ParseError}
    (hbytes : Text.Utf8.decode? bytes = some text) (h : Tree.ofBytes bytes = .error e) :
    checkFile path bytes = some ⟨path, e, .ofParseError text e⟩ := by
  have hlossy : Text.Utf8.decodeLossy bytes = text := by rw [Text.Utf8.decodeLossy, hbytes]
  rw [checkFile, h, hlossy]
  rfl

/-- The position of the stop, looked up in the text with its mark. -/
theorem byteOffset_stop {text front : List Char} (h : text = front ++ stop text) :
    Text.byteOffset text (.ofRest (withoutMark text) (stop text)) =
      byteLength (if IsMarked text ∧ '\n' ∉ front then front.dropLast else front) := by
  by_cases hmark : IsMarked text
  · obtain ⟨read, rfl, hread⟩ := front_of_isMarked h hmark
    have hoffset := Text.Position.byteOffset_cons_after (show '\uFEFF' ≠ '\n' by decide) read
      (stop text)
    rw [← List.cons_append, ← h] at hoffset
    rw [hread, Text.Position.ofRest_append, hoffset]
    by_cases hfeed : '\n' ∈ read <;> simp [hmark, hfeed]
  · have hoffset := Text.Position.byteOffset_after front (stop text)
    rw [← Text.Position.ofRest_append front (stop text), ← h] at hoffset
    rw [withoutMark_of_head? hmark, hoffset, if_neg (fun hboth => hmark hboth.1)]

/-- **Where diagnostics point.**  A file of text that does not parse has a diagnostic with its error.
It points at the byte where the parser stopped, except if the file begins with a byte order mark and
the parser stopped on its first line; then it points at the character in front. -/
theorem checkFile_offset (path : String) {bytes : ByteArray} {text : String} {e : ParseError}
    (hbytes : Text.Utf8.decode? bytes = some text) (h : Tree.ofBytes bytes = .error e) :
    ∃ front bad, text.toList = front ++ stop text.toList ∧
      checkFile path bytes = some bad ∧ bad.error = e ∧
      (bad.diagnostic.offset = byteLength front ↔ ¬ (IsMarked text.toList ∧ '\n' ∉ front)) ∧
      (IsMarked text.toList ∧ '\n' ∉ front →
        bad.diagnostic.offset = byteLength front.dropLast) := by
  obtain ⟨front, hfront⟩ := exists_front text.toList
  have hparse : Tree.parse text = .error e := by rwa [Tree.ofBytes, hbytes] at h
  obtain ⟨problem, rfl⟩ := parse_eq_error hparse
  have hoffset := byteOffset_stop hfront
  rw [← Diagnostic.positionOf_before _ _ problem] at hoffset
  refine ⟨front, _, hfront, checkFile_of_error hbytes h, rfl, ?_, fun hmarked => ?_⟩
  · show Text.byteOffset _ _ = _ ↔ _
    rw [hoffset]
    by_cases hmarked : IsMarked text.toList ∧ '\n' ∉ front
    · obtain ⟨read, rfl, -⟩ := front_of_isMarked hfront hmarked.1
      have hlt := Text.byteLength_dropLast_lt (List.cons_ne_nil '\uFEFF' read)
      rw [if_pos hmarked]
      exact iff_of_false (by omega) (not_not_intro hmarked)
    · rw [if_neg hmarked]
      exact iff_of_true rfl hmarked
  · show Text.byteOffset _ _ = _
    rw [hoffset, if_pos hmarked]

/-- On the second line the mark makes no difference: 25 bytes of the file are in front of the equals
sign. -/
theorem checkFile_offset_second_line :
    let text := "\uFEFFlocale \x7b\n  /* é */ a = ?\n\x7d"
    ∃ bad, checkFile "en.hcl" text.toUTF8 = some bad ∧ bad.diagnostic.offset = 25 := by
  intro text
  have hbytes : Text.Utf8.decode? text.toUTF8 = some text := by decide +kernel
  have hstop : stop text.toList = "= ?\n\x7d".toList := by decide +kernel
  have herror : Tree.ofBytes text.toUTF8 = .error (.unreadable ⟨2, 13⟩ (.refused
      [.within "block", .within "entry value", .within "block", .within "entry value"])) := by
    refine (except_map_eq_error fun _ => ()).1 ?_
    decide +kernel
  obtain ⟨front, bad, hfront, hbad, -, hoffset, -⟩ := checkFile_offset "en.hcl" hbytes herror
  have hread : front = "\uFEFFlocale \x7b\n  /* é */ a ".toList := by
    rw [hstop] at hfront
    exact List.append_cancel_right (hfront.symm.trans (by decide +kernel))
  refine ⟨bad, hbad, ?_⟩
  rw [hoffset.2 (by rw [hread]; decide), hread]
  decide +kernel

/-- On the first line it does: 22 bytes are in front of the question mark, and the diagnostic points
at the blank there. -/
theorem offset_of_marked_first_line :
    let text := "\uFEFFlocale \x7b a = \"b\" \x7d ?"
    Text.Utf8.decode? text.toUTF8 = some text ∧ stop text.toList = ['?'] ∧
      ∃ bad, checkFile "en.hcl" text.toUTF8 = some bad ∧
        bad.error = .unreadable ⟨1, 20⟩ (.leftOver '?') ∧ bad.diagnostic.offset = 21 ∧
        text.utf8ByteSize = 22 + byteLength (stop text.toList) := by
  decide +kernel

end Command

end Phrasebook
