import SchemaAtlas.CommandLine.Run
import SchemaAtlas.Proofs.Query.TypeGraph

/-!
# What printed edges tell

Edges are printed as lines of text, as items of an array and as lines of a chart. Between names
that are words each form tells the edges and their order: an edge is a piece of the output that
ends by itself, since no name holds the characters that stand behind it.

* `Format.edges`             edges as they read in a format
* `tells_edgeLine`           a line of text tells its edge
* `tells_edgeItem`           an item of an array tells its edge
* `Format.edges_injective`   what is printed tells the edges, in each format
* `Format.Prints`            an output that reads as edges and as no others
-/

namespace SchemaAtlas

/-! ## Texts of words in JSON -/

namespace Json

/-- The characters of names are behind all control characters. -/
theorem le_toNat_of_isNameChar {c : Char} (h : Token.isNameChar c = true) : 0x30 ≤ c.toNat := by
  have hval : c.toNat = c.val.toNat := rfl
  -- an upper-case letter, a lower-case letter, a digit, and the underscore
  rcases Bool.or_eq_true_iff.1 h with halphanum | hunderscore
  · rcases Bool.or_eq_true_iff.1 halphanum with halpha | hdigit
    · rcases Bool.or_eq_true_iff.1 halpha with hupper | hlower
      · have hle : 65 ≤ c.val.toNat := UInt32.le_iff_toNat_le.1 (of_decide_eq_true hupper).1
        omega
      · have hle : 97 ≤ c.val.toNat :=
          UInt32.le_iff_toNat_le.1 (of_decide_eq_true (Bool.and_eq_true_iff.1 hlower).1)
        omega
    · exact UInt32.le_iff_toNat_le.1 (of_decide_eq_true (Bool.and_eq_true_iff.1 hdigit).1)
  · rw [of_decide_eq_true hunderscore]
    decide

/-- The characters of names stand for themselves in quote marks. -/
theorem escapeChar_of_isNameChar {c : Char} (h : Token.isNameChar c = true) :
    escapeChar c = [c] := by
  have hne {d : Char} (hd : Token.isNameChar d = false) : c ≠ d := by
    rintro rfl
    cases hd.symm.trans h
  have hprinted : ¬ c.toNat < 0x20 := by
    have hle := le_toNat_of_isNameChar h
    omega
  simp only [escapeChar, hne (d := '"') (by decide), hne (d := '\\') (by decide),
    hne (d := '\x08') (by decide), hne (d := '\x0c') (by decide), hne (d := '\n') (by decide),
    hne (d := '\r') (by decide), hne (d := '\t') (by decide), hprinted, if_false]

/-- A text of such characters stands in quote marks as it is. -/
theorem quote_of_isNameChar {text : String}
    (h : ∀ c ∈ text.toList, Token.isNameChar c = true) :
    quote text = '"' :: (text.toList ++ ['"']) := by
  have hplain : text.toList.flatMap escapeChar = text.toList.flatMap ([·]) :=
    List.flatMap_congr fun c hc => escapeChar_of_isNameChar (h c hc)
  rw [quote, hplain]
  simp

end Json

namespace CommandLine

open Relationship

/-! ## Pieces -/

/-- The characters of a line, with the end of its target. -/
theorem toList_edgeLine (edge : Relationship) :
    (edgeLine edge ++ "\n").toList =
      ' ' :: ' ' :: (edge.source.toList ++ '.' :: (edge.field.toList ++ ' ' :: ("-> ".toList ++
        ((if edge.isList then '[' :: (edge.target.toList ++ [']']) else edge.target.toList) ++
          ['\n'])))) := by
  unfold edgeLine
  split <;> simp

/-- A line of text tells its edge: a dot ends its source, a blank its field and the end of the line
its target. -/
theorem tells_edgeLine : Tells fun edge => (edgeLine edge ++ "\n").toList := by
  intro a b ha hb behind behind' heq
  have hdot {edge : Relationship} (hedge : edge.IsWordy) : '.' ∉ edge.source.toList :=
    not_mem_of_isNameChar hedge.source (by decide)
  have hblank {edge : Relationship} (hedge : edge.IsWordy) : ' ' ∉ edge.field.toList :=
    not_mem_of_isNameChar hedge.field (by decide)
  have hbracket {edge : Relationship} (hedge : edge.IsWordy) : '[' ∉ edge.target.toList :=
    not_mem_of_isNameChar hedge.target (by decide)
  have hend {edge : Relationship} (hedge : edge.IsWordy) :
      '\n' ∉ if edge.isList then '[' :: (edge.target.toList ++ [']']) else edge.target.toList := by
    have htarget : '\n' ∉ edge.target.toList := not_mem_of_isNameChar hedge.target (by decide)
    split <;> simp [htarget]
  -- each part ends in a character that no part of its kind holds, so the parts are read off in turn
  simp only [toList_edgeLine, List.cons_append, List.append_assoc, List.nil_append,
    List.cons.injEq, true_and] at heq
  obtain ⟨hsource, hrest⟩ := List.eq_of_append_cons_eq (hdot ha) (hdot hb) heq
  obtain ⟨hfield, hrest⟩ := List.eq_of_append_cons_eq (hblank ha) (hblank hb) hrest
  obtain ⟨htyped, hbehind⟩ := List.eq_of_append_cons_eq (hend ha) (hend hb)
    (List.append_cancel_left hrest)
  obtain ⟨htarget, hisList⟩ := eq_of_bracketed (hbracket ha) (hbracket hb) htyped
  exact ⟨eq_of_toList hsource htarget hfield hisList, hbehind⟩

/-- An edge as an item of an indented array. -/
def edgeItem (edge : Relationship) : List Char :=
  Json.prettyChars 1 edge.toJson

/-- The key of a member of an item, on a line of its own. -/
def memberKey (name : String) : List Char :=
  Json.newLine 2 ++ (Json.quote name ++ [':', ' '])

/-- An item has its names in quote marks, each behind its key. -/
theorem edgeItem_eq {edge : Relationship} (h : edge.IsWordy) :
    edgeItem edge =
      '\x7b' :: (memberKey "from_type" ++ '"' :: (edge.source.toList ++ '"' ::
        (',' :: (memberKey "to_type" ++ '"' :: (edge.target.toList ++ '"' ::
          (',' :: (memberKey "field_name" ++ '"' :: (edge.field.toList ++ '"' ::
            (',' :: (memberKey "is_list" ++ ((if edge.isList then "true" else "false").toList ++
              (Json.newLine 1 ++ ['\x7d'])))))))))))) := by
  simp [edgeItem, memberKey, toJson, Json.prettyChars, Json.prettyMembers, Json.compactChars,
    Json.quote_of_isNameChar h.source, Json.quote_of_isNameChar h.target,
    Json.quote_of_isNameChar h.field]

/-- An item of an array tells its edge: quote marks end the names. -/
theorem tells_edgeItem : Tells edgeItem := by
  intro a b ha hb behind behind' heq
  have hquote {cs : List Char} (h : ∀ c ∈ cs, Token.isNameChar c = true) : '"' ∉ cs :=
    not_mem_of_isNameChar h (by decide)
  rw [edgeItem_eq ha, edgeItem_eq hb] at heq
  simp only [List.cons_append, List.append_assoc, List.cons.injEq, true_and,
    List.append_cancel_left_eq] at heq
  obtain ⟨hsource, hrest⟩ := List.eq_of_append_cons_eq (hquote ha.source) (hquote hb.source) heq
  simp only [List.cons.injEq, true_and, List.append_cancel_left_eq] at hrest
  obtain ⟨htarget, hrest⟩ := List.eq_of_append_cons_eq (hquote ha.target) (hquote hb.target) hrest
  simp only [List.cons.injEq, true_and, List.append_cancel_left_eq] at hrest
  obtain ⟨hfield, hrest⟩ := List.eq_of_append_cons_eq (hquote ha.field) (hquote hb.field) hrest
  simp only [List.cons.injEq, true_and, List.append_cancel_left_eq] at hrest
  obtain ⟨hisList, hbehind⟩ : a.isList = b.isList ∧ behind = behind' := by
    -- the first letters of the flags differ
    cases hisa : a.isList <;> cases hisb : b.isList <;> simp_all
  exact ⟨eq_of_toList hsource htarget hfield hisList, hbehind⟩

/-! ## Outputs -/

/-- Edges as they read in a format: each of them as one line of text or of a chart, or as an object
in an array. -/
def Format.edges : Format → List Relationship → String
  | .text, [] => "No relationships found\n"
  | .text, edges => lines (edges.map edgeLine)
  | .json, edges => jsonText (.array (edges.map Relationship.toJson))
  | .mermaid, edges => "graph LR\n" ++ String.join (edges.map Relationship.chartLine)

/-- The answer in text is the edges in this format. -/
theorem edgesText_eq (edges : List Relationship) : edgesText edges = Format.text.edges edges := by
  cases edges <;> rfl

/-- Edges as text are one line after the other. -/
theorem toList_text_edges {edges : List Relationship} (h : edges ≠ []) :
    (Format.text.edges edges).toList =
      edges.flatMap (fun edge => (edgeLine edge ++ "\n").toList) ++ [] := by
  rw [Format.edges, lines, String.toList_join, List.map_map, List.flatMap_map, List.append_nil]
  · rfl
  · exact h

/-- Edges as text are not the notice that there are none. -/
theorem text_edges_ne {edges : List Relationship} (h : edges ≠ []) :
    Format.text.edges edges ≠ Format.text.edges [] := by
  intro heq
  obtain ⟨edge, more, rfl⟩ := List.exists_cons_of_ne_nil h
  have hchars := congrArg String.toList heq
  rw [toList_text_edges h, List.flatMap_cons, toList_edgeLine] at hchars
  -- a line begins with a blank
  simp [Format.edges] at hchars

/-- Items of an array that stand behind another one, each behind a comma. -/
theorem prettyItems_eq (edges : List Relationship) :
    Json.prettyItems 1 false (edges.map Relationship.toJson) =
      edges.flatMap fun edge => ',' :: Json.newLine 1 ++ edgeItem edge := by
  induction edges with
  | nil => rfl
  | cons edge edges ih => simp [Json.prettyItems, edgeItem, ih]

/-- Edges as JSON are one item after the other, between two brackets. -/
theorem toList_json_edges (edge : Relationship) (edges : List Relationship) :
    (Format.json.edges (edge :: edges)).toList =
      '[' :: (Json.newLine 1 ++ (edgeItem edge ++
        (edges.flatMap (fun edge => ',' :: Json.newLine 1 ++ edgeItem edge) ++
          (Json.newLine 0 ++ [']', '\n'])))) := by
  simp [Format.edges, jsonText, Json.pretty, Json.prettyChars, Json.prettyItems, prettyItems_eq,
    edgeItem]

/-- An array with an item is not the empty one. -/
theorem json_edges_ne (edge : Relationship) (edges : List Relationship) :
    Format.json.edges (edge :: edges) ≠ Format.json.edges [] := by
  intro heq
  have hchars := congrArg String.toList heq
  rw [toList_json_edges] at hchars
  -- an item begins on a line of its own
  simp [Json.newLine, Format.edges, jsonText, Json.pretty, Json.prettyChars] at hchars

/-- Edges as a chart are one line after the other, below the head. -/
theorem toList_mermaid_edges (edges : List Relationship) :
    (Format.mermaid.edges edges).toList =
      "graph LR\n".toList ++ (edges.flatMap (fun edge => edge.chartLine.toList) ++ []) := by
  rw [Format.edges, String.toList_append, String.toList_join, List.flatMap_map, List.append_nil]

/-- What is printed tells the edges and their order, in each format. -/
theorem Format.edges_injective (format : Format) {edges others : List Relationship}
    (hedges : ∀ edge ∈ edges, edge.IsWordy) (hothers : ∀ edge ∈ others, edge.IsWordy)
    (h : format.edges edges = format.edges others) : edges = others := by
  have hchars := congrArg String.toList h
  cases format with
  | text =>
    by_cases hnil : edges = []
    · subst hnil
      by_contra hne
      exact text_edges_ne (Ne.symm hne) h.symm
    · by_cases hnil' : others = []
      · subst hnil'
        exact absurd h (text_edges_ne hnil)
      · rw [toList_text_edges hnil, toList_text_edges hnil'] at hchars
        exact tells_edgeLine.eq_of_flatMap (by simp) hedges hothers hchars
  | json =>
    cases edges with
    | nil =>
      cases others with
      | nil => rfl
      | cons other others => exact absurd h.symm (json_edges_ne other others)
    | cons edge edges =>
      cases others with
      | nil => exact absurd h (json_edges_ne edge edges)
      | cons other others =>
        obtain ⟨hedge, htail⟩ := List.forall_mem_cons.1 hedges
        obtain ⟨hother, htail'⟩ := List.forall_mem_cons.1 hothers
        rw [toList_json_edges, toList_json_edges] at hchars
        obtain ⟨rfl, hrest⟩ := tells_edgeItem edge other hedge hother _ _
          (List.append_cancel_left (List.cons.inj hchars).2)
        -- behind the last item stands the end of its line, and not a comma
        rw [(tells_edgeItem.append_left (',' :: Json.newLine 1)).eq_of_flatMap
          (by simp [Json.newLine]) htail htail' hrest]
  | mermaid =>
    rw [toList_mermaid_edges, toList_mermaid_edges] at hchars
    exact tells_chartLine.eq_of_flatMap (by simp [toList_chartLine]) hedges hothers
      (List.append_cancel_left hchars)

/-- Whether an output reads as edges and, between names that are words, as no others. -/
structure Format.Prints (format : Format) (printed : List Relationship) (output : String) :
    Prop where
  reads : output = format.edges printed
  tells : ∀ others, (∀ edge ∈ others, edge.IsWordy) → output = format.edges others →
    others = printed

/-- Edges as they read in a format are told by it. -/
theorem Format.prints_edges (format : Format) {edges : List Relationship}
    (h : ∀ edge ∈ edges, edge.IsWordy) : format.Prints edges (format.edges edges) where
  reads := rfl
  tells _ hothers heq := format.edges_injective hothers h heq.symm

end CommandLine

end SchemaAtlas
