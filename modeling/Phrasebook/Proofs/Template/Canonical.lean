import Phrasebook.Proofs.Template.Text
/-!
# Canonical expressions — what texts compile to

An expression is canonical if its texts are not empty, no two of them are neighbours, none that ends
in a dollar sign stands in front of a span, and its names, positions and integers are those of the
grammar.  Every text that compiles makes a canonical expression, and every canonical expression
without floating-point numbers is made by a text: the one that `Expression.print` writes.
-/
namespace Phrasebook

/-! ## Canonical expressions -/

/-- An ASCII letter, then ASCII letters, digits and underscores. -/
def isCallName : List Char → Bool
  | []      => false
  | c :: cs => c.isAlpha && cs.all fun d => d.isAlphanum || d == '_'

/-- The largest number of 64 bits without a sign. -/
def largestPosition : Nat := 0xFFFFFFFFFFFFFFFF

mutual

def Arg.isCanonical : Arg → Bool
  | .call name args => isCallName name.toList && Arg.allCanonical args
  | .positional n   => decide (1 ≤ n ∧ n ≤ largestPosition)
  | .int n          => decide (-0x8000000000000000 ≤ n.toInt ∧ n.toInt ≤ 0x7FFFFFFFFFFFFFFF)
  | .str _          => true
  | .float _        => true
  | .bool _         => true

def Arg.allCanonical : List Arg → Bool
  | []          => true
  | arg :: args => arg.isCanonical && Arg.allCanonical args

end

def Call.isCanonical (c : Call) : Bool := isCallName c.name.toList && Arg.allCanonical c.args

def Node.isCanonical : Node → Bool
  | .text s       => !s.toList.isEmpty
  | .call c       => c.isCanonical
  | .positional n => decide (1 ≤ n ∧ n ≤ largestPosition)

/-- May the second node stand right behind the first? -/
def Node.mayPrecede : Node → Node → Bool
  | .text _, .text _ => false
  | .text s, _       => s.toList.getLast? != some '$'
  | _,       _       => true

def Node.allCanonical : List Node → Bool
  | []            => true
  | node :: nodes => node.isCanonical && nodes.head?.all node.mayPrecede && Node.allCanonical nodes

def Expression.isCanonical (e : Expression) : Bool := Node.allCanonical e.nodes

/-! ## Expressions without floating-point numbers -/

mutual

def Arg.isFloatFree : Arg → Bool
  | .call _ args  => Arg.allFloatFree args
  | .float _      => false
  | .positional _ => true
  | .int _        => true
  | .str _        => true
  | .bool _       => true

def Arg.allFloatFree : List Arg → Bool
  | []          => true
  | arg :: args => arg.isFloatFree && Arg.allFloatFree args

end

def Node.isFloatFree : Node → Bool
  | .call c => Arg.allFloatFree c.args
  | _       => true

def Expression.isFloatFree (e : Expression) : Bool := e.nodes.all Node.isFloatFree

/-! ## Printing -/

/-- The text of a string argument between its quotes. -/
def escapeQuotes (cs : List Char) : List Char :=
  cs.flatMap fun c => if c = '"' ∨ c = '\\' then ['\\', c] else [c]

mutual

/-- An argument with no blanks in it. -/
def Arg.print : Arg → List Char
  | .call name args => name.toList ++ '(' :: Arg.printAll args ++ [')']
  | .str s          => '"' :: escapeQuotes s.toList ++ ['"']
  | .int n          => decimal n.toInt
  | .float x        => x.display.toList
  | .bool b         => if b then "true".toList else "false".toList
  | .positional n   => '_' :: Nat.toDigits 10 n

def Arg.printAll : List Arg → List Char
  | []          => []
  | arg :: args => arg.print ++ Arg.printMore args

/-- Arguments behind another one. -/
def Arg.printMore : List Arg → List Char
  | []          => []
  | arg :: args => ',' :: arg.print ++ Arg.printMore args

end

def Call.print (c : Call) : List Char := c.name.toList ++ '(' :: Arg.printAll c.args ++ [')']

def Node.print : Node → List Char
  | .text s       => Template.escapeOpeners s.toList
  | .call c       => '$' :: '{' :: c.print ++ ['}']
  | .positional n => '$' :: '{' :: '_' :: Nat.toDigits 10 n ++ ['}']

def Expression.print (e : Expression) : String := String.ofList (e.nodes.flatMap Node.print)

namespace Template

open Phrasebook.Parser

/-! ## What compiles is canonical -/

theorem isCallName_iff {cs : List Char} : isCallName cs = true ↔ IsName cs := by
  unfold IsName
  cases cs with
  | nil =>
    constructor
    · intro h; cases h
    · rintro ⟨_, _, h, _⟩; cases h
  | cons c cs =>
    rw [isCallName, Bool.and_eq_true, List.all_eq_true]
    constructor
    · intro h
      exact ⟨c, cs, rfl, h⟩
    · rintro ⟨_, _, ⟨⟩, h⟩
      exact h

theorem isPosition_iff {n : Nat} : isPosition n = true ↔ 1 ≤ n ∧ n ≤ largestPosition := by
  rw [isPosition, Bool.and_eq_true, decide_eq_true_eq, decide_eq_true_eq, largestPosition]
  omega

theorem isCanonical_int (n : Int64) : (Arg.int n).isCanonical = true := by
  have h1 := n.le_toInt
  have h2 := n.toInt_lt
  rw [Arg.isCanonical, decide_eq_true_eq]
  omega

theorem isCanonical_number {n : Numeral} {arg : Arg} (h : n.toArg? = some arg) :
    arg.isCanonical = true := by
  unfold Numeral.toArg? at h
  split at h
  · cases h
    rw [Arg.isCanonical]
  · cases h
    exact isCanonical_int _
  · cases h

mutual

theorem ArgText.isCanonical : ∀ {arg : Arg} {cs : List Char}, ArgText arg cs →
    arg.isCanonical = true
  | _, _, .wrapped _ hc _ => hc.isCanonical
  | _, _, .str _ => by rw [Arg.isCanonical]
  | _, _, .positional _ hp => by
    rw [Arg.isCanonical, decide_eq_true_eq]
    exact isPosition_iff.1 hp
  | _, _, .number _ ha => isCanonical_number ha
  | _, _, .bool _ => by rw [Arg.isCanonical]
  | _, _, .bare hc _ => hc.isCanonical

theorem CallText.isCanonical : ∀ {g : List Char} {name : String} {args : List Arg}
    {cs : List Char}, CallText g ⟨name, args⟩ cs → (Arg.call name args).isCanonical = true
  | _, _, _, _, .nullary hf _ _ => by
    rw [Arg.isCanonical, String.toList_ofList, isCallName_iff.2 hf]
    rfl
  | _, _, _, _, .applied hf _ _ ha hm _ => by
    rw [Arg.isCanonical, String.toList_ofList, isCallName_iff.2 hf, Arg.allCanonical,
      ha.isCanonical, hm.allCanonical]
    rfl

theorem MoreText.allCanonical : ∀ {args : List Arg} {more : List Char}, MoreText args more →
    Arg.allCanonical args = true
  | _, _, .nil => by rw [Arg.allCanonical]
  | _, _, .cons _ _ ha hm => by
    rw [Arg.allCanonical, ha.isCanonical, hm.allCanonical]
    rfl

end

theorem SpanText.isCanonical {node : Node} {cs : List Char} (h : SpanText node cs) :
    node.isCanonical = true := by
  cases h with
  | positional _ _ hp _ =>
    rw [Node.isCanonical, decide_eq_true_eq]
    exact isPosition_iff.1 hp
  | @call c _ _ _ _ _ hc _ =>
    have := hc.isCanonical
    rwa [Arg.isCanonical] at this

theorem allCanonical_textNode (cs : List Char) : Node.allCanonical (textNode cs) = true := by
  cases cs with
  | nil => rfl
  | cons c cs =>
    rw [textNode, Node.allCanonical, Node.isCanonical, String.toList_ofList]
    rfl

theorem mayPrecede_of_span {node : Node} (h : node.isText = false) (next : Node) :
    node.mayPrecede next = true := by
  cases node with
  | text s => cases h
  | call | positional => rfl

theorem mayPrecede_text {s : String} {node : Node} (hnode : node.isText = false) :
    (Node.text s).mayPrecede node = (s.toList.getLast? != some '$') := by
  cases node with
  | text s => cases hnode
  | call | positional => rfl

/-- Nodes behind a span, with literal text that does not end in a dollar sign in front of it. -/
theorem allCanonical_span {node : Node} (hnode : node.isCanonical = true)
    (hspan : node.isText = false) {cs : List Char} (hcs : cs.getLast? ≠ some '$')
    {nodes : List Node} (hnodes : Node.allCanonical nodes = true) :
    Node.allCanonical (textNode cs ++ node :: nodes) = true := by
  have htail : Node.allCanonical (node :: nodes) = true := by
    have hnext : nodes.head?.all node.mayPrecede = true := by
      rw [Option.all_eq_true]
      exact fun next _ => mayPrecede_of_span hspan next
    rw [Node.allCanonical, hnode, hnext, hnodes]
    rfl
  cases cs with
  | nil => exact htail
  | cons c cs =>
    have hnext : (Node.text (String.ofList (c :: cs))).mayPrecede node = true := by
      rw [mayPrecede_text hspan, String.toList_ofList, bne_iff_ne]
      exact hcs
    rw [textNode, List.singleton_append, Node.allCanonical, htail, List.head?_cons,
      Option.all_some, hnext, Node.isCanonical, String.toList_ofList]
    rfl

/-- Literal text may end in a dollar sign only where no opener follows. -/
theorem allCanonical_of_nodesBehind {held s rest : List Char} {nodes : List Node}
    (h : nodesBehind held s = .ok nodes rest) :
    (held.head? = some '$' → ¬ opener <+: s) → Node.allCanonical nodes = true := by
  refine nodesBehind_rec (P := fun held s nodes =>
    (held.head? = some '$' → ¬ opener <+: s) → Node.allCanonical nodes = true) ?_ ?_ ?_ ?_ ?_ h
  · exact fun held _ => allCanonical_textNode _
  · intro held c s nodes hc ih _
    refine ih fun hc' => ?_
    rw [List.head?_cons, Option.some_inj] at hc'
    exact absurd hc' hc
  · exact fun held s nodes ih _ => ih fun hb => by cases hb
  · exact fun held s nodes hs ih _ => ih fun _ => hs.2
  · intro held cs s node nodes hcs ih hd
    refine allCanonical_span hcs.isCanonical hcs.isText ?_ (ih fun hd' => by cases hd')
    obtain ⟨t, rfl⟩ := hcs.split
    rw [List.getLast?_reverse]
    exact fun hd' => hd hd' ⟨t ++ s, rfl⟩

theorem isCanonical_of_parse {text : String} {e : Expression}
    (h : Expression.parse text = .ok e) : e.isCanonical = true :=
  allCanonical_of_nodesBehind (parse_eq_ok.1 h) fun hd => by cases hd

/-! ## What is printed compiles -/

theorem digits_toDigits (n : Nat) : Digits (Nat.toDigits 10 n) :=
  ⟨Nat.toDigits_ne_nil, fun _ => Nat.isDigit_of_mem_toDigits (by decide) (by decide)⟩

theorem decimalValue_toDigits (n : Nat) : decimalValue (Nat.toDigits 10 n) = n := by
  have h := Nat.ofDigitChars_ten_toDigits (n := n)
  rw [Nat.ofDigitChars_eq_foldl] at h
  unfold decimalValue
  simpa only [Nat.mul_comm 10] using h

theorem stringText_escapeQuotes : ∀ cs : List Char, StringText cs (escapeQuotes cs)
  | [] => .nil
  | c :: cs => by
    have ih := stringText_escapeQuotes cs
    rw [escapeQuotes, List.flatMap_cons]
    by_cases hc : c = '"' ∨ c = '\\'
    · rw [if_pos hc]
      refine .escape ?_ ih
      rcases hc with rfl | rfl <;> rfl
    · rw [if_neg hc]
      rw [not_or] at hc
      exact .plain hc.1 hc.2 ih

/-- The numeral that an integer is printed as. -/
def numeralOf (k : Int) : Numeral := ⟨decide (k < 0), Nat.toDigits 10 k.natAbs, none⟩

theorem wellFormed_numeralOf (k : Int) : (numeralOf k).WellFormed where
  whole  := digits_toDigits _
  places := fun ds hds => by cases hds

theorem text_numeralOf (k : Int) : (numeralOf k).text = decimal k := by
  unfold numeralOf decimal Numeral.text
  by_cases hk : k < 0
  · simp [hk]
  · simp [hk]

theorem toArg?_numeralOf (n : Int64) : (numeralOf n.toInt).toArg? = some (.int n) := by
  have hvalue : (if decide (n.toInt < 0) = true then -(n.toInt.natAbs : Int) else n.toInt.natAbs) =
      n.toInt := by
    by_cases hn : n.toInt < 0
    · rw [decide_eq_true hn, if_pos rfl]
      omega
    · rw [decide_eq_false hn, if_neg Bool.false_ne_true]
      omega
  have h1 := n.le_toInt
  have h2 := n.toInt_lt
  have hfits : (numeralOf n.toInt).toInt64? = some n := by
    unfold Numeral.toInt64? numeralOf
    simp only [decimalValue_toDigits, hvalue]
    rw [toInt64?, if_pos (by omega), Int64.ofInt_toInt]
  unfold Numeral.toArg?
  rw [hfits]
  rfl

mutual

theorem argText_print : ∀ arg : Arg, arg.isCanonical = true → arg.isFloatFree = true →
    ArgText arg arg.print
  | .call name args, hc, hf => .bare (callText_print name args hc hf) (.inl rfl)
  | .str s, _, _ => by
    have := ArgText.str (stringText_escapeQuotes s.toList)
    rwa [String.ofList_toList] at this
  | .int n, _, _ => by
    rw [Arg.print, ← text_numeralOf]
    exact .number (wellFormed_numeralOf _) (toArg?_numeralOf n)
  | .float x, _, hf => by
    rw [Arg.isFloatFree] at hf
    cases hf
  | .bool b, _, _ => .bool b
  | .positional n, hc, _ => by
    rw [Arg.isCanonical, decide_eq_true_eq, ← isPosition_iff] at hc
    have := ArgText.positional (digits_toDigits n) (by rwa [decimalValue_toDigits])
    rwa [decimalValue_toDigits] at this

theorem callText_print : ∀ (name : String) (args : List Arg),
    (Arg.call name args).isCanonical = true → (Arg.call name args).isFloatFree = true →
    CallText [] ⟨name, args⟩ (Arg.call name args).print
  | name, [], hc, _ => by
    rw [Arg.isCanonical, Bool.and_eq_true] at hc
    have := CallText.nullary (isCallName_iff.1 hc.1) blanks_nil blanks_nil
    rw [String.ofList_toList] at this
    rw [Arg.print, Arg.printAll]
    simpa using this
  | name, arg :: args, hc, hf => by
    rw [Arg.isCanonical, Arg.allCanonical, Bool.and_eq_true, Bool.and_eq_true] at hc
    rw [Arg.isFloatFree, Arg.allFloatFree, Bool.and_eq_true] at hf
    have := CallText.applied (isCallName_iff.1 hc.1) blanks_nil blanks_nil
      (argText_print arg hc.2.1 hf.1) (moreText_printMore args hc.2.2 hf.2) blanks_nil
    rw [String.ofList_toList] at this
    rw [Arg.print, Arg.printAll]
    simpa using this

theorem moreText_printMore : ∀ args : List Arg, Arg.allCanonical args = true →
    Arg.allFloatFree args = true → MoreText args (Arg.printMore args)
  | [], _, _ => .nil
  | arg :: args, hc, hf => by
    rw [Arg.allCanonical, Bool.and_eq_true] at hc
    rw [Arg.allFloatFree, Bool.and_eq_true] at hf
    have := MoreText.cons blanks_nil blanks_nil (argText_print arg hc.1 hf.1)
      (moreText_printMore args hc.2 hf.2)
    rw [Arg.printMore]
    simpa using this

end

theorem spanText_print {node : Node} (hspan : node.isText = false)
    (hc : node.isCanonical = true) (hf : node.isFloatFree = true) :
    SpanText node node.print := by
  cases node with
  | text s => cases hspan
  | call c =>
    have hcall : CallText [] c c.print := by
      have := callText_print c.name c.args (by rwa [Arg.isCanonical]) (by rwa [Arg.isFloatFree])
      rwa [Arg.print] at this
    simpa [Node.print] using SpanText.call blanks_nil hcall blanks_nil
  | positional n =>
    rw [Node.isCanonical, decide_eq_true_eq, ← isPosition_iff] at hc
    have := SpanText.positional blanks_nil (digits_toDigits n) (by rwa [decimalValue_toDigits])
      blanks_nil
    rw [decimalValue_toDigits] at this
    simpa [Node.print] using this

theorem textNode_toList {s : String} (h : (Node.text s).isCanonical = true) :
    textNode s.toList = [.text s] := by
  rw [Node.isCanonical] at h
  cases hs : s.toList with
  | nil => rw [hs] at h; cases h
  | cons c cs => rw [textNode, ← hs, String.ofList_toList]

/-- No text stands first in the nodes. -/
def Spanned (nodes : List Node) : Prop := nodes.head?.all (fun node => !node.isText) = true

theorem spanned_of_text {s : String} {nodes : List Node}
    (h : nodes.head?.all (Node.text s).mayPrecede = true) : Spanned nodes := by
  cases nodes with
  | nil => rfl
  | cons next nodes =>
    cases next with
    | text => cases h
    | call | positional => rfl

theorem nil_of_dollar {s : String} {nodes : List Node}
    (h : nodes.head?.all (Node.text s).mayPrecede = true) (hd : s.toList.getLast? = some '$') :
    nodes = [] := by
  have hnext := spanned_of_text h
  cases nodes with
  | nil => rfl
  | cons next nodes =>
    rw [Spanned, List.head?_cons, Option.all_some, Bool.not_eq_true'] at hnext
    rw [List.head?_cons, Option.all_some, mayPrecede_text hnext, hd] at h
    cases h

/-- Printed nodes are read back, and literal text in front of them makes a node of its own. -/
theorem nodesBehind_print : ∀ (nodes : List Node) (held : List Char),
    Node.allCanonical nodes = true → nodes.all Node.isFloatFree = true →
    (held ≠ [] → Spanned nodes) →
    nodesBehind held (nodes.flatMap Node.print) = .ok (textNode held.reverse ++ nodes) []
  | [], held, _, _, _ => by
    rw [List.flatMap_nil, nodesBehind_nil, List.append_nil]
  | node :: nodes, held, hc, hf, hheld => by
    rw [Node.allCanonical, Bool.and_eq_true, Bool.and_eq_true] at hc
    obtain ⟨⟨hnode, hnext⟩, hnodes⟩ := hc
    rw [List.all_cons, Bool.and_eq_true] at hf
    rw [List.flatMap_cons]
    have ih := fun held => nodesBehind_print nodes held hnodes hf.2
    cases node with
    | text s =>
      have hheld : held = [] := by
        cases held with
        | nil => rfl
        | cons c cs => cases hheld (List.cons_ne_nil c cs)
      have hlone : s.toList.getLast? = some '$' → Lone (nodes.flatMap Node.print) := by
        intro hd
        rw [nil_of_dollar hnext hd]
        exact lone_nil
      rw [hheld, Node.print, nodesBehind_escapeOpeners _ _ _ hlone, List.append_nil,
        ih _ (fun _ => spanned_of_text hnext), List.reverse_reverse, textNode_toList hnode]
      rfl
    | call | positional =>
      rw [nodesBehind_span (span_eq_ok.2 ⟨_, spanText_print rfl hnode hf.1, rfl⟩),
        ih [] (fun h => absurd rfl h)]
      rfl

theorem parse_print_of_isCanonical {e : Expression} (hc : e.isCanonical = true)
    (hf : e.isFloatFree = true) : Expression.parse e.print = .ok e := by
  rw [parse_eq_ok, Expression.print, String.toList_ofList]
  exact nodesBehind_print e.nodes [] hc hf (fun h => absurd rfl h)

end Template

/-- **Texts compile to the canonical expressions.**  What a text compiles to is canonical, and what
is canonical and has no floating-point numbers is what its print compiles to. -/
theorem Expression.image_of_parse :
    (∀ (text : String) (e : Expression), parse text = .ok e → e.isCanonical = true) ∧
    (∀ e : Expression, e.isCanonical = true → e.isFloatFree = true → parse e.print = .ok e) :=
  ⟨fun _ _ h => Template.isCanonical_of_parse h,
    fun _ hc hf => Template.parse_print_of_isCanonical hc hf⟩

theorem Expression.image_of_parse_nested :
    parse "$$\x7b$\x7bf(\"\\\"\",g(-7),_2)\x7d$" =
        .ok ⟨[.text "$\x7b", .call ⟨"f", [.str "\"", .call "g" [.int (-7)], .positional 2]⟩,
          .text "$"]⟩ ∧
      (⟨[.text "$\x7b", .call ⟨"f", [.str "\"", .call "g" [.int (-7)], .positional 2]⟩,
        .text "$"]⟩ : Expression).isCanonical = true := by
  have h := image_of_parse.2 ⟨[.text "$\x7b",
    .call ⟨"f", [.str "\"", .call "g" [.int (-7)], .positional 2]⟩, .text "$"]⟩
    (by decide) (by decide)
  exact ⟨h, image_of_parse.1 _ _ h⟩

end Phrasebook
