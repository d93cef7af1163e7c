import Phrasebook.Proofs.Template.Call
/-!
# Reading texts — literal characters one at a time, spans whole

The parser of texts cuts literal text into pieces and joins them again.  `nodesBehind held` is that
parser with literal text in front that has been read already, and it has one law for each way a text
may begin: nothing, a character that is no dollar sign, an escaped opener, a span, and a dollar sign
that opens nothing.  `opening_cases` says that there is no other way.
-/
namespace Phrasebook.Template

open Phrasebook.Parser

/-! ## Pieces -/

instance consumes_span : Consumes span := by
  unfold span opener
  infer_instance

instance consumes_piece : Consumes piece := by
  unfold piece escapedOpener
  infer_instance

/-- A dollar sign in front of this text is itself. -/
def Lone (s : List Char) : Prop := ¬ ['{'] <+: s ∧ ¬ opener <+: s

theorem lone_nil : Lone [] := ⟨by decide, by decide⟩

theorem not_opener_prefix_cons {c : Char} (hc : c ≠ '$') (s : List Char) :
    ¬ opener <+: c :: s := not_cons_prefix_cons hc ['{'] s

theorem not_escapedOpener_prefix_cons {c : Char} (hc : c ≠ '$') (s : List Char) :
    ¬ escapedOpener <+: c :: s := not_cons_prefix_cons hc ['$', '{'] s

theorem opener_prefix_dollar {s : List Char} : opener <+: '$' :: s ↔ ['{'] <+: s :=
  List.cons_prefix_cons.trans (and_iff_right rfl)

theorem escapedOpener_prefix_dollar {s : List Char} : escapedOpener <+: '$' :: s ↔ opener <+: s :=
  List.cons_prefix_cons.trans (and_iff_right rfl)

theorem refuses_span {s : List Char} (h : ¬ opener <+: s) : Refuses span s :=
  ((refuses_literal h).bind _).expecting _

/-- Behind an opener there is no way back. -/
theorem not_refuses_span (s : List Char) : ¬ Refuses span (opener ++ s) := by
  rintro ⟨e, he, hf⟩
  unfold span at he
  simp only [expecting, bind_of_ok (literal_append opener s), commit] at he
  split at he
  · cases he
  · rename_i e' he'
    cases he
    split at he'
    · cases he'
    · cases he'
      cases hf

theorem piece_escapedOpener (s : List Char) :
    piece (escapedOpener ++ s) = .ok (.literal opener) s :=
  orElse_of_ok (bind_pure_of_ok (literal_append escapedOpener s) fun _ => Piece.literal opener) _

theorem SpanText.split {node : Node} {cs : List Char} (h : SpanText node cs) :
    ∃ t, cs = '$' :: '{' :: t := by
  cases h with
  | positional | call => exact ⟨_, by simp only [List.cons_append]; rfl⟩

theorem SpanText.isText {node : Node} {cs : List Char} (h : SpanText node cs) :
    node.isText = false := by
  cases h with
  | positional | call => rfl

theorem piece_of_span {s rest : List Char} {node : Node} (h : span s = .ok node rest) :
    piece s = .ok (.span node) rest := by
  obtain ⟨cs, hcs, rfl⟩ := span_eq_ok.1 h
  have hesc : ¬ escapedOpener <+: cs ++ rest := by
    obtain ⟨t, rfl⟩ := hcs.split
    exact mt escapedOpener_prefix_dollar.1 (not_opener_prefix_cons (by decide) _)
  unfold piece
  rw [orElse_of_refuses ((refuses_literal hesc).bind _)]
  exact orElse_of_ok (bind_pure_of_ok h _) _

theorem piece_run {c : Char} (hc : c ≠ '$') (s : List Char) :
    piece (c :: s) = .ok (.literal (c :: s.takeWhile (· != '$'))) (s.dropWhile (· != '$')) := by
  have hrun : takeSome (· != '$') (c :: s) =
      .ok (c :: s.takeWhile (· != '$')) (s.dropWhile (· != '$')) := by
    simp [takeSome, hc]
  unfold piece
  rw [orElse_of_refuses ((refuses_literal (not_escapedOpener_prefix_cons hc s)).bind _),
    orElse_of_refuses ((refuses_span (not_opener_prefix_cons hc s)).bind _)]
  exact orElse_of_ok (bind_pure_of_ok hrun _) _

theorem piece_dollar {s : List Char} (hs : Lone s) : piece ('$' :: s) = .ok (.literal ['$']) s := by
  unfold piece
  rw [orElse_of_refuses ((refuses_literal (mt escapedOpener_prefix_dollar.1 hs.2)).bind _),
    orElse_of_refuses ((refuses_span (mt opener_prefix_dollar.1 hs.1)).bind _),
    orElse_of_refuses ((refuses_takeSome (stops_cons.2 (by decide))).bind _)]
  exact bind_of_ok (char_cons '$' s) _

theorem refuses_piece_nil : Refuses piece [] :=
  ((refuses_literal (by decide)).bind _).orElse <|
    ((refuses_span (by decide)).bind _).orElse <|
    ((refuses_takeSome (stops_nil _)).bind _).orElse <| (refuses_char (by decide)).bind _

/-! ## Nodes -/

/-- The parser of texts behind literal text, which is held back to front. -/
def nodesBehind (held : List Char) : Parser (List Node) :=
  fun s => (many piece s).map (joinBehind held)

theorem parse_eq_ok {text : String} {e : Expression} :
    Expression.parse text = .ok e ↔ nodesBehind [] text.toList = .ok e.nodes [] := by
  unfold Expression.parse runAll nodesBehind join
  cases many piece text.toList with
  | ok pieces rest =>
    cases rest with
    | nil =>
      constructor
      · intro h; cases h; rfl
      · intro h; injection h with h _; cases e; cases h; rfl
    | cons c rest =>
      constructor
      · intro h; cases h
      · intro h; injection h with _ h; cases h
  | failed f =>
    constructor
    · intro h; cases h
    · intro h; cases h

theorem nodesBehind_of_literal {s rest cs : List Char} (h : piece s = .ok (.literal cs) rest)
    (held : List Char) : nodesBehind held s = nodesBehind (cs.reverse ++ held) rest := by
  unfold nodesBehind
  rw [many_of_ok h, Reply.map_map]
  rfl

theorem nodesBehind_nil (held : List Char) :
    nodesBehind held [] = .ok (textNode held.reverse) [] := by
  unfold nodesBehind
  rw [many_of_refuses refuses_piece_nil]
  rfl

/-- A run of literal text may be read one character at a time. -/
theorem nodesBehind_plain {c : Char} (hc : c ≠ '$') (held s : List Char) :
    nodesBehind held (c :: s) = nodesBehind (c :: held) s := by
  rw [nodesBehind_of_literal (piece_run hc s)]
  cases s with
  | nil => rfl
  | cons d s =>
    by_cases hd : d = '$'
    · subst hd
      simp
    · rw [nodesBehind_of_literal (piece_run hd s)]
      simp [hd]

theorem nodesBehind_escapedOpener (held s : List Char) :
    nodesBehind held ('$' :: '$' :: '{' :: s) = nodesBehind ('{' :: '$' :: held) s :=
  nodesBehind_of_literal (piece_escapedOpener s) held

theorem nodesBehind_dollar {s : List Char} (hs : Lone s) (held : List Char) :
    nodesBehind held ('$' :: s) = nodesBehind ('$' :: held) s :=
  nodesBehind_of_literal (piece_dollar hs) held

theorem nodesBehind_span {s rest : List Char} {node : Node} (h : span s = .ok node rest)
    (held : List Char) :
    nodesBehind held s =
      (nodesBehind [] rest).map fun nodes => textNode held.reverse ++ node :: nodes := by
  unfold nodesBehind
  rw [many_of_ok (piece_of_span h), Reply.map_map, Reply.map_map]
  rfl

theorem firm_of_span_failed {s : List Char} {e : Failure} (h : span (opener ++ s) = .failed e) :
    e.firm = true := firm_of_not_refuses h (not_refuses_span s)

theorem nodesBehind_of_span_failed {s : List Char} {e : Failure}
    (h : span ('$' :: '{' :: s) = .failed e) (held : List Char) :
    nodesBehind held ('$' :: '{' :: s) = .failed e := by
  have hfirm := firm_of_span_failed h
  have hesc : Refuses (literal escapedOpener) ('$' :: '{' :: s) :=
    refuses_literal (mt escapedOpener_prefix_dollar.1 (not_opener_prefix_cons (by decide) s))
  have hpiece : piece ('$' :: '{' :: s) = .failed e := by
    unfold piece
    rw [orElse_of_refuses (hesc.bind _), orElse_apply, bind_apply, h]
    simp [hfirm]
  rw [nodesBehind, many_of_firm hpiece hfirm]
  rfl

/-- Where an opener stands, nothing but a span makes a text. -/
theorem span_of_nodesBehind {held s rest : List Char} {nodes : List Node}
    (h : nodesBehind held ('$' :: '{' :: s) = .ok nodes rest) :
    ∃ node rest', span ('$' :: '{' :: s) = .ok node rest' := by
  cases hspan : span ('$' :: '{' :: s) with
  | ok node rest' => exact ⟨node, rest', rfl⟩
  | failed e =>
    rw [nodesBehind_of_span_failed hspan] at h
    cases h

theorem opening_cases (s : List Char) :
    s = [] ∨ (∃ c t, s = c :: t ∧ c ≠ '$') ∨ (∃ t, s = '$' :: '$' :: '{' :: t) ∨
      (∃ t, s = '$' :: '{' :: t) ∨ ∃ t, s = '$' :: t ∧ Lone t := by
  cases s with
  | nil => exact .inl rfl
  | cons c t =>
    by_cases hc : c = '$'
    · subst hc
      by_cases h1 : ['{'] <+: t
      · obtain ⟨t, rfl⟩ := h1
        exact .inr (.inr (.inr (.inl ⟨t, rfl⟩)))
      · by_cases h2 : opener <+: t
        · obtain ⟨t, rfl⟩ := h2
          exact .inr (.inr (.inl ⟨t, rfl⟩))
        · exact .inr (.inr (.inr (.inr ⟨t, rfl, h1, h2⟩)))
    · exact .inr (.inl ⟨c, t, rfl, hc⟩)

/-- What holds of the nodes of a text is shown by the ways a text may begin. -/
theorem nodesBehind_rec {P : List Char → List Char → List Node → Prop}
    (nil : ∀ held, P held [] (textNode held.reverse))
    (plain : ∀ held c s nodes, c ≠ '$' → P (c :: held) s nodes → P held (c :: s) nodes)
    (escaped : ∀ held s nodes, P ('{' :: '$' :: held) s nodes →
      P held ('$' :: '$' :: '{' :: s) nodes)
    (dollar : ∀ held s nodes, Lone s → P ('$' :: held) s nodes → P held ('$' :: s) nodes)
    (span : ∀ held cs s node nodes, SpanText node cs → P [] s nodes →
      P held (cs ++ s) (textNode held.reverse ++ node :: nodes))
    {held s rest : List Char} {nodes : List Node} (h : nodesBehind held s = .ok nodes rest) :
    P held s nodes := by
  rcases opening_cases s with rfl | ⟨c, t, rfl, hc⟩ | ⟨t, rfl⟩ | ⟨t, rfl⟩ | ⟨t, rfl, ht⟩
  · rw [nodesBehind_nil] at h
    cases h
    exact nil held
  · rw [nodesBehind_plain hc] at h
    exact plain held c t nodes hc (nodesBehind_rec nil plain escaped dollar span h)
  · rw [nodesBehind_escapedOpener] at h
    exact escaped held t nodes (nodesBehind_rec nil plain escaped dollar span h)
  · obtain ⟨node, rest', hspan⟩ := span_of_nodesBehind h
    have hlt := Consumes.length_lt hspan
    rw [nodesBehind_span hspan, Reply.map_eq_ok] at h
    obtain ⟨nodes', rfl, h'⟩ := h
    obtain ⟨cs, hcs, hs⟩ := span_eq_ok.1 hspan
    rw [hs]
    exact span held cs rest' node nodes' hcs (nodesBehind_rec nil plain escaped dollar span h')
  · rw [nodesBehind_dollar ht] at h
    exact dollar held t nodes ht (nodesBehind_rec nil plain escaped dollar span h)
termination_by s.length
decreasing_by all_goals subst_vars; simp_all <;> omega

theorem textNode_eq_nil {cs : List Char} : textNode cs = [] ↔ cs = [] := by
  cases cs with
  | nil => exact ⟨fun _ => rfl, fun _ => rfl⟩
  | cons c cs =>
    constructor
    · intro h; cases h
    · intro h; cases h

/-- A text with one node that is no text is a span and nothing else. -/
theorem spanText_of_single {s rest : List Char} {node : Node} (hnode : node.isText = false)
    (h : nodesBehind [] s = .ok [node] rest) : SpanText node s := by
  let P : List Char → List Char → List Node → Prop := fun held s nodes =>
    (nodes = [] → held = [] ∧ s = []) ∧ (nodes = [node] → held = [] ∧ SpanText node s)
  -- literal text in front makes a node of its own
  have hheld : ∀ {c held s s' nodes}, P (c :: held) s nodes → ∀ held', P held' s' nodes := by
    intro c held s s' nodes ih held'
    exact ⟨fun h => absurd (ih.1 h).1 (List.cons_ne_nil c held),
      fun h => absurd (ih.2 h).1 (List.cons_ne_nil c held)⟩
  have hP : P [] s [node] := by
    refine nodesBehind_rec (P := P) ?_ (fun held _ _ _ _ ih => hheld ih held)
      (fun held _ _ ih => hheld ih held) (fun held _ _ _ ih => hheld ih held) ?_ h
    · refine fun held => ⟨fun h => ?_, fun h => ?_⟩
      · rw [textNode_eq_nil, List.reverse_eq_nil_iff] at h
        exact ⟨h, rfl⟩
      · cases hr : held.reverse with
        | nil => rw [hr] at h; cases h
        | cons c cs => rw [hr] at h; cases h; cases hnode
    · refine fun held cs s node' nodes hcs ih => ⟨fun h => ?_, fun h => ?_⟩
      · cases (List.append_eq_nil_iff.1 h).2
      · cases hr : held.reverse with
        | nil =>
          rw [hr] at h
          cases h
          rw [(ih.1 rfl).2, List.append_nil]
          exact ⟨List.reverse_eq_nil_iff.1 hr, hcs⟩
        | cons c t => rw [hr] at h; cases h
  exact (hP.2 rfl).2

/-! ## Escaped openers -/

/-- Literal text as a template spells it: with another dollar sign in front of each opener. -/
def escapeOpeners : List Char → List Char
  | []               => []
  | '$' :: '{' :: cs => '$' :: '$' :: '{' :: escapeOpeners cs
  | c :: cs          => c :: escapeOpeners cs

theorem escapeOpeners_cons {c : Char} {cs : List Char} (h : ¬ opener <+: c :: cs) :
    escapeOpeners (c :: cs) = c :: escapeOpeners cs := by
  rw [escapeOpeners]
  rintro cs' rfl rfl
  exact h ⟨cs', rfl⟩

theorem escapeOpeners_opener {cs : List Char} (h : ['{'] <+: cs) :
    escapeOpeners ('$' :: cs) = '$' :: '$' :: escapeOpeners cs := by
  obtain ⟨t, rfl⟩ := h
  rw [List.singleton_append, escapeOpeners,
    escapeOpeners_cons (not_opener_prefix_cons (by decide) t)]

theorem head_escapeOpeners (cs s : List Char) (c : Char) :
    ∃ t, escapeOpeners (c :: cs) ++ s = c :: t := by
  by_cases h : opener <+: c :: cs
  · obtain ⟨t, ht⟩ := h
    injection ht with hc ht
    subst hc ht
    exact ⟨_, rfl⟩
  · rw [escapeOpeners_cons h]
    exact ⟨_, rfl⟩

/-- What a dollar sign in front of escaped text meets: nothing that it would open. -/
theorem lone_escapeOpeners {cs s : List Char} (hcs : ¬ ['{'] <+: cs)
    (hs : cs.getLast?.getD '$' = '$' → Lone s) : Lone (escapeOpeners cs ++ s) := by
  cases cs with
  | nil => exact hs rfl
  | cons c cs =>
    obtain ⟨t, ht⟩ := head_escapeOpeners cs s c
    have hc : c ≠ '{' := by
      rintro rfl
      exact hcs ⟨cs, rfl⟩
    refine ⟨by rw [ht]; exact not_cons_prefix_cons hc [] t, ?_⟩
    by_cases hd : c = '$'
    · subst hd
      cases cs with
      | nil =>
        rw [escapeOpeners_cons (by decide)]
        exact mt opener_prefix_dollar.1 (hs rfl).1
      | cons d cs =>
        by_cases hb : d = '{'
        · subst hb
          exact mt opener_prefix_dollar.1 (not_cons_prefix_cons (by decide) [] _)
        · rw [escapeOpeners_cons (mt opener_prefix_dollar.1 (not_cons_prefix_cons hb [] cs))]
          obtain ⟨t', ht'⟩ := head_escapeOpeners cs s d
          rw [List.cons_append, ht']
          exact mt opener_prefix_dollar.1 (not_cons_prefix_cons hb [] t')
    · rw [ht]
      exact not_opener_prefix_cons hd t

/-- **Escaped text is read as it was**, unless it ends in a dollar sign that what follows would
take for its own. -/
theorem nodesBehind_escapeOpeners (cs held s : List Char)
    (h : cs.getLast? = some '$' → Lone s) :
    nodesBehind held (escapeOpeners cs ++ s) = nodesBehind (cs.reverse ++ held) s := by
  fun_induction escapeOpeners cs generalizing held with
  | case1 => rfl
  | case2 cs ih =>
    rw [List.cons_append, List.cons_append, List.cons_append, nodesBehind_escapedOpener, ih]
    · simp
    · intro hl
      refine h ?_
      rw [List.getLast?_cons, List.getLast?_cons, hl]
      rfl
  | case3 c cs hne ih =>
    have htail : nodesBehind (c :: held) (escapeOpeners cs ++ s) =
        nodesBehind (cs.reverse ++ c :: held) s := by
      refine ih (c :: held) fun hl => h ?_
      rw [List.getLast?_cons, hl]
      rfl
    rw [List.cons_append, List.reverse_cons, List.append_assoc, List.singleton_append]
    by_cases hc : c = '$'
    · subst hc
      rw [nodesBehind_dollar (lone_escapeOpeners (fun ⟨t, ht⟩ => hne t rfl ht.symm) fun hl => h ?_)]
      · exact htail
      · rw [List.getLast?_cons, hl]
    · rw [nodesBehind_plain hc]
      exact htail

theorem parse_escapeOpeners (cs : List Char) :
    Expression.parse (String.ofList (escapeOpeners cs)) = .ok ⟨textNode cs⟩ := by
  have h := nodesBehind_escapeOpeners cs [] [] fun _ => lone_nil
  rw [nodesBehind_nil, List.append_nil, List.append_nil, List.reverse_reverse] at h
  rw [parse_eq_ok, String.toList_ofList]
  exact h

end Phrasebook.Template
