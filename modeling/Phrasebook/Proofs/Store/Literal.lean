import Phrasebook.Proofs.Render.Stackless
import Phrasebook.Proofs.Resource.Block
import Phrasebook.Proofs.Store.Loading
/-!
# Literal messages — from a resource to the lookup

A message that is literal text renders as that text, whatever it is rendered for and against, and
uses nothing of the random source.  With its escapes in place, any text at all can be such a
message.
-/
namespace Phrasebook

open Phrasebook.Parser

/-! ## Loading one message -/

theorem compile_single {path key text : String} {tree : Resource.Tree} {e : Expression}
    (hitems : tree.items = .ok [(key, some (.text text))]) (h : Expression.parse text = .ok e) :
    (compile path (.ok tree)).run [] = (.ok [(key, .single e)], []) :=
  compile_eq_ok.2 ⟨_, hitems, .cons ⟨rfl, .single h⟩ .nil, rfl⟩

/-- A resource with one message replaces the messages of a store by it. -/
theorem Store.loadText_single {st : Store} {label source key text : String}
    {tree : Resource.Tree} {e : Expression} (hparse : Resource.Tree.parse source = .ok tree)
    (hitems : tree.items = .ok [(key, some (.text text))]) (h : Expression.parse text = .ok e) :
    st.loadText label source =
      ⟨{ st with entries := (∅ : Entries).insert key (.single e) }, .ok 1, []⟩ := by
  have hcollected : (Collection.ofText st.duplicates label source).run [] =
      (.ok ⟨(∅ : Entries).insert key (.single e), (∅ : Std.TreeMap String String).insert key label⟩,
        []) := by
    unfold Collection.ofText
    rw [hparse, LoadM.run_bind_of_ok (compile_single hitems h)]
    rfl
  rw [loadText, install_of_ok hcollected]
  rfl

/-! ## Rendering literal text -/

namespace Render

theorem evalExpression_textNode (scene : Scene) (reference : String → RenderM String)
    (cs : List Char) (state : State) :
    evalExpression scene reference ⟨Template.textNode cs⟩ state = (String.ofList cs, state) := by
  cases cs with
  | nil => rfl
  | cons c cs =>
    show (String.join [String.ofList (c :: cs)], state) = _
    rw [String.join_cons, String.join_nil, String.append_empty]

theorem renderBody_textNode {scene : Scene} {key : String} {cs : List Char}
    (h : scene.entry? key = some (.single ⟨Template.textNode cs⟩))
    (reference : String → RenderM String) (state : State) :
    renderBody scene reference key state = (String.ofList cs, state) := by
  rw [renderBody_single h, evalExpression_textNode]

end Render

/-- A message that is literal text is that text, and its key is all that the rendering opens. -/
theorem Store.lookupWith_textNode {st : Store} {key : String} {cs : List Char}
    (hentry : st.get? key = some (.single ⟨Template.textNode cs⟩)) (hdepth : 1 ≤ st.maxDepth)
    (subject : Subject) (args : List Value) :
    st.lookupWith key subject args = ⟨String.ofList cs, st.source, [.opened [key]]⟩ := by
  have hscene : Scene.entry? (st.scene subject args) key =
      some (.single ⟨Template.textNode cs⟩) := hentry
  have hbody := Render.renderBody_textNode hscene
  unfold lookupWith Scene.render Rendering.of
  cases hd : st.maxDepth with
  | zero => rw [hd] at hdepth; cases hdepth
  | succ depth =>
    rw [Render.renderKey, Render.under_of_push _ (Render.push_empty (by omega) key), hbody]
    rfl

/-! ## Resources of one literal message -/

namespace Resource

/-- The text of a resource with one message, its quotes, backslashes, newlines and dollar signs
escaped. -/
def literalSource (message : String) : String :=
  "locale \x7b a = \"" ++ String.ofList (escape message.toList) ++ "\" \x7d"

theorem gap_space {s : List Char} (hs : Stops isGapStart s) : gap (' ' :: s) = .ok () s :=
  gap_append_token (.blank (by decide) .nil) hs

theorem separator_end {s mid : List Char} (hgap : gap s = .ok () mid)
    (hmid : mid.head? ≠ some ',') : separator s = .ok () mid := separator_gap .nil hgap hmid

theorem many_entry_single {s mid : List Char} {e : String × Value}
    (h : entry block s = .ok e mid) (hmid : Stops isKeyStart mid) :
    many (entry block) s = .ok [e] mid :=
  many_eq_ok_cons.2 ⟨mid, h, many_of_refuses ((refuses_key hmid).bind _)⟩

/-- The tree of that resource, with the openers of the message escaped for the template. -/
def literalTree (message : String) : Tree :=
  ⟨[("locale", .block [("a", .text (String.ofList (Template.escapeOpeners message.toList)))])]⟩

theorem file_literal (cs : List Char) :
    file ("locale \x7b a = \"".toList ++ escape cs ++ "\" \x7d".toList) =
      .ok [("locale", .block [("a", .text (String.ofList (Template.escapeOpeners cs)))])] [] := by
  have hvalue : value block ('"' :: escape cs ++ '"' :: ' ' :: ['}']) = .ok _ [' ', '}'] :=
    value_of_quoted (quoted_spelled (spelled_escape cs) [' ', '}'])
  have hkey : key (['a'] ++ ' ' :: '=' :: ' ' :: '"' :: (escape cs ++ '"' :: ' ' :: ['}'])) =
      .ok ['a'] _ :=
    key_of_identifier (identifier_append rfl (by simp) (stops_cons.2 rfl))
  have hentry := entry_of_value hkey (gap_space (stops_cons.2 (by decide)))
    (gap_space (stops_cons.2 (by decide))) hvalue
    (separator_end (gap_space (stops_cons.2 (by decide))) (by simp))
  have hblock := block_of_entries (gap_space (stops_cons.2 (by decide)))
    (many_entry_single hentry (stops_cons.2 (by decide)))
  have hlocale : key ("locale".toList ++ ' ' :: '{' :: ' ' :: 'a' :: ' ' :: '=' :: ' ' :: '"' ::
      (escape cs ++ '"' :: ' ' :: ['}'])) = .ok "locale".toList _ :=
    key_of_identifier (identifier_append rfl (List.all_eq_true.1 rfl) (stops_cons.2 rfl))
  have hfile := entry_of_block hlocale (gap_space (stops_cons.2 (by decide))) hblock
    (separator_end (gap_of_stops (stops_nil _)) (by simp))
  rw [List.append_assoc]
  exact file_of_entries (gap_of_stops (stops_cons.2 (by decide)))
    (many_entry_single hfile (stops_nil _))

theorem toList_between (front back : String) (cs : List Char) :
    (front ++ String.ofList cs ++ back).toList = front.toList ++ cs ++ back.toList := by
  rw [String.toList_append, String.toList_append, String.toList_ofList]

theorem parse_literalSource (message : String) :
    Tree.parse (literalSource message) = .ok (literalTree message) := by
  have htext : (literalSource message).toList =
      "locale \x7b a = \"".toList ++ escape message.toList ++ "\" \x7d".toList :=
    toList_between _ _ _
  refine parse_of_file ?_ ?_
  · rw [htext]
    intro h
    cases h
  · rw [htext]
    exact file_literal message.toList

theorem items_literalTree (message : String) :
    (literalTree message).items = .ok [("core.locale.a",
      some (.text (String.ofList (Template.escapeOpeners message.toList))))] := rfl

end Resource

/-- **Literal text survives**: escaped in a resource and loaded, it is what the lookup answers, from
whatever store and for whomever, and nothing is drawn. -/
theorem Store.lookup_of_literal (st : Store) (label message : String) :
    (st.loadText label (Resource.literalSource message)).result = .ok 1 ∧
      (st.loadText label (Resource.literalSource message)).store.keys = ["core.locale.a"] ∧
      ∀ (later : Store) (subject : Subject) (args : List Value),
        later.entries = (st.loadText label (Resource.literalSource message)).store.entries →
        1 ≤ later.maxDepth →
        later.lookupWith "core.locale.a" subject args =
          ⟨message, later.source, [.opened ["core.locale.a"]]⟩ := by
  rw [loadText_single (Resource.parse_literalSource message) (Resource.items_literalTree message)
    (Template.parse_escapeOpeners message.toList)]
  refine ⟨rfl, ?_, fun later subject args hentries hdepth => ?_⟩
  · show ((∅ : Entries).insert "core.locale.a" _).keys = _
    rfl
  · have hentry : later.get? "core.locale.a" =
        some (.single ⟨Template.textNode message.toList⟩) := by
      rw [get?, hentries]
      exact Std.TreeMap.getElem?_insert_self
    rw [lookupWith_textNode hentry hdepth, String.ofList_toList]

theorem Store.lookup_of_literal_price :
    (Store.loadText { source := .cycle #[7] } "t.hcl"
        (Resource.literalSource "$$\x7b\"$")).store.lookupWith "core.locale.a"
          (.bool true) [.int 1] =
      ⟨"$$\x7b\"$", (Store.loadText { source := .cycle #[7] } "t.hcl"
        (Resource.literalSource "$$\x7b\"$")).store.source, [.opened ["core.locale.a"]]⟩ := by
  refine (lookup_of_literal _ "t.hcl" "$$\x7b\"$").2.2 _ (.bool true) [.int 1] rfl ?_
  rw [loadText, install_store]
  decide

end Phrasebook
