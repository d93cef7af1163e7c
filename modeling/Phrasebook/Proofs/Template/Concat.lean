import Phrasebook.Proofs.Template.Canonical
import Phrasebook.Proofs.Template.Failure
import Phrasebook.Proofs.Text.Position
/-!
# Texts behind texts — a text compiles to the nodes of its parts

A text that does not end in a dollar sign is read alike whatever stands behind it: its spans are
closed, and each of its dollar signs has met what it needs to know.  So the nodes of two texts in
one are those of the first and then those of the second (`Expression.parse_append`), and where the
second fails, the whole fails there.
-/
namespace Phrasebook

/-! ## Nodes behind nodes -/

/-- A node in front of others.  Two texts that meet make one node. -/
def Node.inFront : Node → List Node → List Node
  | .text s, .text t :: nodes => .text (s ++ t) :: nodes
  | node,    nodes            => node :: nodes

def Node.concat : List Node → List Node → List Node
  | [],                   later => later
  | [last],               later => last.inFront later
  | node :: next :: rest, later => node :: Node.concat (next :: rest) later

instance : Append Expression := ⟨fun e e' => ⟨Node.concat e.nodes e'.nodes⟩⟩

namespace Template

open Phrasebook.Parser

theorem inFront_of_span {node : Node} (h : node.isText = false) (later : List Node) :
    node.inFront later = node :: later := by
  cases node with
  | text s => cases h
  | call | positional => rfl

/-- Text and then a span: what follows meets the span's own nodes only. -/
theorem concat_span {node : Node} (h : node.isText = false) (cs : List Char)
    (nodes later : List Node) :
    Node.concat (textNode cs ++ node :: nodes) later =
      textNode cs ++ node :: Node.concat nodes later := by
  have hspan : Node.concat (node :: nodes) later = node :: Node.concat nodes later := by
    cases nodes with
    | nil => exact inFront_of_span h later
    | cons next nodes => rfl
  cases cs with
  | nil => exact hspan
  | cons c cs =>
    rw [textNode, List.singleton_append, List.singleton_append, Node.concat, hspan]

theorem concat_textNode_nil (cs : List Char) : Node.concat (textNode cs) [] = textNode cs := by
  cases cs <;> rfl

theorem concat_textNode_span {node : Node} (h : node.isText = false) (cs : List Char)
    (nodes : List Node) :
    Node.concat (textNode cs) (node :: nodes) = textNode cs ++ node :: nodes := by
  cases cs with
  | nil => rfl
  | cons c cs =>
    cases node with
    | text s => cases h
    | call | positional => rfl

theorem concat_textNode_append (cs ds : List Char) (later : List Node) :
    Node.concat (textNode (cs ++ ds)) later =
      Node.concat (textNode cs) (Node.concat (textNode ds) later) := by
  cases cs with
  | nil => rfl
  | cons c cs =>
    cases ds with
    | nil => rw [List.append_nil]; rfl
    | cons d ds =>
      have happend : String.ofList (c :: cs ++ d :: ds) =
          String.ofList (c :: cs) ++ String.ofList (d :: ds) := String.ofList_append
      cases later with
      | nil =>
        show [Node.text (String.ofList (c :: cs ++ d :: ds))] = _
        rw [happend]
        rfl
      | cons next later =>
        cases next with
        | text t =>
          show Node.text (String.ofList (c :: cs ++ d :: ds) ++ t) :: later = _
          rw [happend, String.append_assoc]
          rfl
        | call | positional =>
          show Node.text (String.ofList (c :: cs ++ d :: ds)) :: _ = _
          rw [happend]
          rfl

/-- Literal text in front of nodes can be told from them. -/
theorem concat_textNode_inj {cs ds : List Char} (hcs : cs ≠ []) (hds : ds ≠ []) {later : List Node}
    (h : Node.concat (textNode cs) later = Node.concat (textNode ds) later) : cs = ds := by
  obtain ⟨c, cs, rfl⟩ := List.exists_cons_of_ne_nil hcs
  obtain ⟨d, ds, rfl⟩ := List.exists_cons_of_ne_nil hds
  cases later with
  | nil =>
    injection h with htext _
    injection htext with htext
    exact String.ofList_inj.1 htext
  | cons next later =>
    cases next with
    | text s =>
      injection h with htext _
      injection htext with htext
      exact String.ofList_inj.1 ((String.append_left_inj s).1 htext)
    | call | positional =>
      injection h with htext _
      injection htext with htext
      exact String.ofList_inj.1 htext

/-! ## Reading on -/

/-- Literal text that has been read already is a node in front of what is read. -/
def Detached (s : List Char) : Prop :=
  ∀ held, nodesBehind held s = (nodesBehind [] s).map (Node.concat (textNode held.reverse))

/-- Characters go from the text to what has been read of it. -/
theorem Detached.behind {s : List Char} (h : Detached s) (cs held : List Char) :
    nodesBehind (cs.reverse ++ held) s =
      (nodesBehind cs.reverse s).map (Node.concat (textNode held.reverse)) := by
  rw [h (cs.reverse ++ held), h cs.reverse, Reply.map_map, List.reverse_append,
    List.reverse_reverse]
  exact Reply.map_congr (concat_textNode_append held.reverse cs) _

theorem detached (s : List Char) : Detached s := by
  induction s using text_rec with
  | nil =>
    intro held
    rw [nodesBehind_nil, nodesBehind_nil, Reply.map_ok, List.reverse_nil, textNode,
      concat_textNode_nil]
  | plain c s hc ih =>
    intro held
    rw [nodesBehind_plain hc, nodesBehind_plain hc]
    exact ih.behind [c] held
  | escaped s ih =>
    intro held
    rw [nodesBehind_escapedOpener, nodesBehind_escapedOpener]
    exact ih.behind opener held
  | dollar s hs ih =>
    intro held
    rw [nodesBehind_dollar hs, nodesBehind_dollar hs]
    exact ih.behind ['$'] held
  | span s rest node hspan ih =>
    intro held
    obtain ⟨cs, hcs, -⟩ := span_eq_ok.1 hspan
    rw [nodesBehind_span hspan, nodesBehind_span hspan, Reply.map_map]
    exact Reply.map_congr (fun nodes => (concat_textNode_span hcs.isText held.reverse nodes).symm) _
  | failed s e hspan =>
    intro held
    rw [nodesBehind_of_span_failed hspan, nodesBehind_of_span_failed hspan]
    rfl

/-- What has been read already does not decide whether the rest compiles. -/
theorem nodesBehind_of_held {held s rest : List Char} {nodes : List Node}
    (h : nodesBehind held s = .ok nodes rest) (held' : List Char) :
    ∃ nodes', nodesBehind held' s = .ok nodes' rest := by
  rw [detached s held, Reply.map_eq_ok] at h
  obtain ⟨later, -, hlater⟩ := h
  exact ⟨_, by rw [detached s held', hlater, Reply.map_ok]⟩

/-- Texts that compile to the same nodes, and alike from some place on, are alike in front of it. -/
theorem held_inj {cs ds s rest rest' : List Char} {nodes : List Node} (hcs : cs ≠ []) (hds : ds ≠ [])
    (h : nodesBehind cs.reverse s = .ok nodes rest)
    (h' : nodesBehind ds.reverse s = .ok nodes rest') : cs = ds := by
  rw [detached s, Reply.map_eq_ok, List.reverse_reverse] at h h'
  obtain ⟨later, rfl, hlater⟩ := h
  obtain ⟨later', heq, hlater'⟩ := h'
  obtain ⟨rfl, -⟩ := Reply.ok.inj (hlater.symm.trans hlater')
  exact concat_textNode_inj hcs hds heq.symm

theorem getLast?_of_cons {c : Char} {s : List Char} (h : (c :: s).getLast? ≠ some '$') :
    s.getLast? ≠ some '$' := by
  intro hs
  rw [List.getLast?_cons, hs] at h
  exact h rfl

theorem getLast?_of_append (cs : List Char) {s : List Char} (h : (cs ++ s).getLast? ≠ some '$') :
    s.getLast? ≠ some '$' := by
  intro hs
  rw [List.getLast?_append, hs] at h
  exact h rfl

/-- Two characters tell what a dollar sign in front of them stands for. -/
theorem Lone.append_of_two {s : List Char} (h : Lone s) (hlen : 2 ≤ s.length) (t : List Char) :
    Lone (s ++ t) := by
  match s, h, hlen with
  | c :: d :: s, ⟨hbrace, hopener⟩, _ =>
    constructor
    · intro hp
      exact hbrace (List.cons_prefix_cons.2 ⟨(List.cons_prefix_cons.1 hp).1, List.nil_prefix⟩)
    · intro hp
      obtain ⟨hc, hp⟩ := List.cons_prefix_cons.1 hp
      obtain ⟨hd, -⟩ := List.cons_prefix_cons.1 hp
      exact hopener (by rw [← hc, ← hd]; exact List.prefix_append opener s)

/-- A dollar sign knows what it stands for by the two characters behind it, and in front of another
dollar sign by three. -/
theorem Lone.append {s : List Char} (h : Lone s) (hlast : ('$' :: s).getLast? ≠ some '$')
    (t : List Char) : Lone (s ++ t) := by
  match s, h, hlast with
  | [], _, hlast => exact absurd rfl hlast
  | [c], h, hlast =>
    have hc : c ≠ '$' := fun hc => hlast (by rw [hc]; rfl)
    have hbrace : c ≠ '{' := by
      rintro rfl
      exact h.1 (List.prefix_refl _)
    exact ⟨not_cons_prefix_cons hbrace [] t, not_opener_prefix_cons hc t⟩
  | c :: d :: s, h, _ => exact h.append_of_two (by simp) t

/-- **A text that compiles is read alike whatever follows**, unless it ends in a dollar sign. -/
theorem nodesBehind_append {held s rest : List Char} {nodes : List Node}
    (h : nodesBehind held s = .ok nodes rest) :
    s.getLast? ≠ some '$' → ∀ t, nodesBehind held (s ++ t) =
      (nodesBehind [] t).map (Node.concat nodes) := by
  refine nodesBehind_rec (P := fun held s nodes => s.getLast? ≠ some '$' → ∀ t,
    nodesBehind held (s ++ t) = (nodesBehind [] t).map (Node.concat nodes)) ?_ ?_ ?_ ?_ ?_ h
  · exact fun held _ t => detached t held
  · intro held c s nodes hc ih hlast t
    rw [List.cons_append, nodesBehind_plain hc]
    exact ih (getLast?_of_cons hlast) t
  · intro held s nodes ih hlast t
    rw [List.cons_append, List.cons_append, List.cons_append, nodesBehind_escapedOpener]
    exact ih (getLast?_of_append escapedOpener hlast) t
  · intro held s nodes hs ih hlast t
    rw [List.cons_append, nodesBehind_dollar (hs.append hlast t)]
    exact ih (getLast?_of_cons hlast) t
  · intro held cs s node nodes hcs ih hlast t
    have hspan : span (cs ++ s ++ t) = .ok node (s ++ t) :=
      span_eq_ok.2 ⟨cs, hcs, List.append_assoc cs s t⟩
    rw [nodesBehind_span hspan, ih (getLast?_of_append cs hlast) t, Reply.map_map]
    exact Reply.map_congr (fun later => (concat_span hcs.isText held.reverse nodes later).symm) _

/-- Where the second text does not compile, the whole fails with its failure. -/
theorem nodesBehind_append_failed {s t rest : List Char} {nodes : List Node} {e : Failure}
    (h : nodesBehind [] s = .ok nodes rest) (hlast : s.getLast? ≠ some '$')
    (ht : nodesBehind [] t = .failed e) : nodesBehind [] (s ++ t) = .failed e := by
  rw [nodesBehind_append h hlast t, ht]
  rfl

end Template

/-- An error stands behind what is in front of it, and its kind is told by what is left. -/
theorem ParseError.before_append (front rest : List Char) (problem : Problem) :
    ParseError.before (front ++ rest) rest problem = match rest with
      | []     => .unexpectedEnd (Text.Position.after front)
      | _ :: _ => .unreadable (Text.Position.after front) problem := by
  rw [← Text.Position.ofRest_append front rest]
  cases rest <;> rfl

open Template in
/-- **Texts compile part by part.**  Let the first text compile and not end in a dollar sign.  With
a second text that compiles behind it, the nodes of both make the whole, and two texts that meet
are one.  With one behind it that fails, the whole fails with the same words in front of the same
character: at the end, if there it fails, or behind what the second text has in front of it. -/
theorem Expression.parse_append {a b : String} {e : Expression} (ha : parse a = .ok e)
    (hlast : a.toList.getLast? ≠ some '$') :
    (∀ e', parse b = .ok e' → parse (a ++ b) = .ok (e ++ e')) ∧
    ∀ err, parse b = .error err →
      (err = .unexpectedEnd (Text.Position.after b.toList) ∧
        parse (a ++ b) = .error (.unexpectedEnd (Text.Position.after (a.toList ++ b.toList)))) ∨
      ∃ front c rest problem, b.toList = front ++ c :: rest ∧
        err = .unreadable (Text.Position.after front) problem ∧
        parse (a ++ b) = .error (.unreadable (Text.Position.after (a.toList ++ front)) problem) := by
  have hnodes := parse_eq_ok.1 ha
  refine ⟨fun e' hb => ?_, fun err hb => ?_⟩
  · rw [parse_eq_ok, String.toList_append, nodesBehind_append hnodes hlast, parse_eq_ok.1 hb]
    rfl
  · obtain ⟨f, hf, rfl⟩ := parse_eq_error.1 hb
    obtain ⟨front, hfront⟩ := suffix_of_nodesBehind_failed hf
    have hwhole : parse (a ++ b) =
        .error (.before (a.toList ++ b.toList) f.rest (.refused f.expected)) := by
      refine parse_eq_error.2 ⟨f, ?_, by rw [String.toList_append]⟩
      rw [String.toList_append]
      exact nodesBehind_append_failed hnodes hlast hf
    rw [← hfront, ← List.append_assoc, ParseError.before_append] at hwhole
    rw [← hfront, ParseError.before_append]
    cases hrest : f.rest with
    | nil =>
      rw [hrest] at hwhole
      rw [List.append_nil]
      exact .inl ⟨rfl, hwhole⟩
    | cons c rest =>
      rw [hrest] at hwhole
      exact .inr ⟨front, c, rest, .refused f.expected, rfl, rfl, hwhole⟩

theorem Expression.parse_append_next_line :
    parse "$5\n" = .ok ⟨[.text "$5\n"]⟩ ∧ "$5\n".toList.getLast? ≠ some '$' ∧
      parse ("$5\n" ++ "b$\x7b_1\x7d") = .ok ⟨[.text "$5\nb", .positional 1]⟩ ∧
      parse "b$\x7b_1" = .error (.unexpectedEnd ⟨1, 6⟩) ∧
      parse ("$5\n" ++ "b$\x7b_1") = .error (.unexpectedEnd ⟨2, 6⟩) := by
  have hprice : parse "$5\n" = .ok ⟨[.text "$5\n"]⟩ := rfl
  have hlast : "$5\n".toList.getLast? ≠ some '$' := by decide
  have hfails : parse "b$\x7b_1" = .error (.unexpectedEnd ⟨1, 6⟩) := rfl
  refine ⟨hprice, hlast, (parse_append hprice hlast).1 ⟨[.text "b", .positional 1]⟩ rfl, hfails, ?_⟩
  obtain ⟨-, herror⟩ | ⟨_, _, _, _, -, herr, -⟩ := (parse_append hprice hlast).2 _ hfails
  · exact herror
  · cases herr

end Phrasebook
