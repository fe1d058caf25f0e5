import Mathlib.Data.List.Nodup
import SchemaAtlas.Document.Token
import SchemaAtlas.Proofs.Lists
import SchemaAtlas.Query.TypeGraph

/-!
# The lines of a flowchart

A flowchart has no two equal lines, and it tells the edges of the graph: edges whose names are made
of the characters of names are different edges just if they are different lines. What is compared
while the chart is drawn is less than an edge, a label in place of a field and a flag, but the
square brackets of a label do not occur in names.

* `Relationship.sameOnChart_iff`       edges are the same on a chart only if they are equal
* `Relationship.Tells`                 pieces of a text that tell their edges
* `Relationship.tells_chartLine`       a line tells its edge
* `firstOnChart_eq_eraseDups`          each edge is drawn where it occurs first
-/

namespace SchemaAtlas

namespace Relationship

/-- Whether the names of an edge are made of the characters that names are made of. -/
structure IsWordy (edge : Relationship) : Prop where
  source : ∀ c ∈ edge.source.toList, Token.isNameChar c = true
  target : ∀ c ∈ edge.target.toList, Token.isNameChar c = true
  field : ∀ c ∈ edge.field.toList, Token.isNameChar c = true

variable {a b : Relationship}

/-- Other characters do not occur in such names. -/
theorem not_mem_of_isNameChar {cs : List Char} {c : Char}
    (h : ∀ c ∈ cs, Token.isNameChar c = true) (hc : Token.isNameChar c = false) : c ∉ cs := by
  intro hmem
  rw [h c hmem] at hc
  cases hc

/-- A label is the name of the field, in brackets for a list. -/
theorem toList_label (edge : Relationship) :
    edge.label.toList =
      if edge.isList then '[' :: (edge.field.toList ++ [']']) else edge.field.toList := by
  unfold label
  split <;> simp

/-- A name that may stand in square brackets tells whether it does. -/
theorem eq_of_bracketed {cs cs' : List Char} {flag flag' : Bool} (h : '[' ∉ cs) (h' : '[' ∉ cs')
    (heq : (if flag then '[' :: (cs ++ [']']) else cs) =
      if flag' then '[' :: (cs' ++ [']']) else cs') : cs = cs' ∧ flag = flag' := by
  cases flag <;> cases flag' <;> simp only [Bool.false_eq_true, if_true, if_false] at heq
  · exact ⟨heq, rfl⟩
  · exact absurd (heq ▸ List.mem_cons_self) h
  · exact absurd (heq ▸ List.mem_cons_self) h'
  · exact ⟨List.append_inj_left' (List.cons.inj heq).2 rfl, rfl⟩

/-- A label tells the field and whether it yields a list. -/
theorem IsWordy.eq_of_label_eq (ha : a.IsWordy) (hb : b.IsWordy) (h : a.label = b.label) :
    a.field = b.field ∧ a.isList = b.isList := by
  have hbracket {edge : Relationship} (hedge : edge.IsWordy) : '[' ∉ edge.field.toList :=
    not_mem_of_isNameChar hedge.field (by decide)
  have hchars := congrArg String.toList h
  rw [toList_label, toList_label] at hchars
  obtain ⟨hfield, hisList⟩ := eq_of_bracketed (hbracket ha) (hbracket hb) hchars
  exact ⟨String.toList_inj.1 hfield, hisList⟩

/-- Edges are the same on a chart only if they are equal. -/
theorem sameOnChart_iff (ha : a.IsWordy) (hb : b.IsWordy) : a.sameOnChart b = true ↔ a = b := by
  simp only [sameOnChart, Bool.and_eq_true, beq_iff_eq]
  constructor
  · rintro ⟨⟨hsource, htarget⟩, hlabel⟩
    obtain ⟨hfield, hisList⟩ := ha.eq_of_label_eq hb hlabel
    cases a
    cases b
    simp_all
  · rintro rfl
    exact ⟨⟨rfl, rfl⟩, rfl⟩

/-- Edges whose names are written alike are equal. -/
theorem eq_of_toList (hsource : a.source.toList = b.source.toList)
    (htarget : a.target.toList = b.target.toList) (hfield : a.field.toList = b.field.toList)
    (hisList : a.isList = b.isList) : a = b := by
  cases a
  cases b
  simp_all [String.toList_inj]

/-- Whether pieces of a text tell the edges that they are made from, whatever stands behind them. -/
def Tells (piece : Relationship → List Char) : Prop :=
  ∀ a b : Relationship, a.IsWordy → b.IsWordy → ∀ behind behind' : List Char,
    piece a ++ behind = piece b ++ behind' → a = b ∧ behind = behind'

/-- Text in front of a piece does not keep it from telling edges apart. -/
theorem Tells.append_left {piece : Relationship → List Char} (h : Tells piece)
    (before : List Char) : Tells fun edge => before ++ piece edge := by
  intro a b ha hb behind behind' heq
  rw [List.append_assoc, List.append_assoc] at heq
  exact h a b ha hb behind behind' (List.append_cancel_left heq)

/-- Pieces one after the other tell the edges and their order, if what stands at the end does not
begin with a piece. -/
theorem Tells.eq_of_flatMap {piece : Relationship → List Char} (h : Tells piece)
    {ending : List Char} (hending : ∀ edge behind, piece edge ++ behind ≠ ending)
    {edges others : List Relationship} (hedges : ∀ edge ∈ edges, edge.IsWordy)
    (hothers : ∀ edge ∈ others, edge.IsWordy)
    (heq : edges.flatMap piece ++ ending = others.flatMap piece ++ ending) : edges = others := by
  -- both lists at once; the ending tells where a list has come to its end
  induction edges generalizing others with
  | nil =>
    cases others with
    | nil => rfl
    | cons other others =>
      rw [List.flatMap_cons, List.append_assoc] at heq
      exact absurd heq.symm (hending other _)
  | cons edge edges ih =>
    cases others with
    | nil =>
      rw [List.flatMap_cons, List.append_assoc] at heq
      exact absurd heq (hending edge _)
    | cons other others =>
      obtain ⟨hedge, htail⟩ := List.forall_mem_cons.1 hedges
      obtain ⟨hother, htail'⟩ := List.forall_mem_cons.1 hothers
      rw [List.flatMap_cons, List.flatMap_cons, List.append_assoc, List.append_assoc] at heq
      obtain ⟨rfl, hrest⟩ := h edge other hedge hother _ _ heq
      rw [ih htail htail' hrest]

/-- The characters of a line of the chart, part by part. -/
theorem toList_chartLine (edge : Relationship) :
    edge.chartLine.toList =
      ' ' :: ' ' :: (edge.source.toList ++ ' ' :: ("-->|".toList ++ (edge.label.toList ++
        '|' :: ' ' :: (edge.target.toList ++ ['\n'])))) := by
  simp [chartLine]

/-- The line of an edge tells the edge: a blank ends its source, a bar its label and the end of the
line its target. -/
theorem tells_chartLine : Tells fun edge => edge.chartLine.toList := by
  intro a b ha hb behind behind' heq
  have hblank {edge : Relationship} (hedge : edge.IsWordy) : ' ' ∉ edge.source.toList :=
    not_mem_of_isNameChar hedge.source (by decide)
  have hbar {edge : Relationship} (hedge : edge.IsWordy) : '|' ∉ edge.label.toList := by
    have hfield : '|' ∉ edge.field.toList := not_mem_of_isNameChar hedge.field (by decide)
    rw [toList_label]
    split <;> simp [hfield]
  have hend {edge : Relationship} (hedge : edge.IsWordy) : '\n' ∉ edge.target.toList :=
    not_mem_of_isNameChar hedge.target (by decide)
  -- each part ends in a character that no part of its kind holds, so the parts are read off in turn
  simp only [toList_chartLine, List.cons_append, List.append_assoc, List.nil_append,
    List.cons.injEq, true_and] at heq
  obtain ⟨hsource, hrest⟩ := List.eq_of_append_cons_eq (hblank ha) (hblank hb) heq
  obtain ⟨hlabel, hrest⟩ := List.eq_of_append_cons_eq (hbar ha) (hbar hb)
    (List.append_cancel_left hrest)
  obtain ⟨htarget, hbehind⟩ := List.eq_of_append_cons_eq (hend ha) (hend hb)
    (List.cons.inj hrest).2
  obtain ⟨hfield, hisList⟩ := ha.eq_of_label_eq hb (String.toList_inj.1 hlabel)
  exact ⟨eq_of_toList hsource htarget (congrArg String.toList hfield) hisList, hbehind⟩

/-- Lines of the chart tell their edges apart. -/
theorem IsWordy.chartLine_injective (ha : a.IsWordy) (hb : b.IsWordy)
    (h : a.chartLine = b.chartLine) : a = b :=
  (tells_chartLine a b ha hb [] [] (by simp only [h])).1

end Relationship

/-! ## What is drawn -/

variable {edges : List Relationship}

/-- What is drawn is what is not drawn yet, once and where it occurs first. -/
theorem firstOnChart_eq {drawn : List Relationship} (hdrawn : ∀ edge ∈ drawn, edge.IsWordy)
    (hedges : ∀ edge ∈ edges, edge.IsWordy) :
    firstOnChart drawn edges = (edges.filter (· ∉ drawn)).eraseDups := by
  induction edges generalizing drawn with
  | nil => simp [firstOnChart]
  | cons r rest ih =>
    obtain ⟨hr, hrest⟩ := List.forall_mem_cons.1 hedges
    have hany : drawn.any (·.sameOnChart r) = true ↔ r ∈ drawn := by
      rw [List.any_eq_true]
      constructor
      · rintro ⟨edge, hedge, hsame⟩
        exact (Relationship.sameOnChart_iff (hdrawn edge hedge) hr).1 hsame ▸ hedge
      · intro hmem
        exact ⟨r, hmem, (Relationship.sameOnChart_iff hr hr).2 rfl⟩
    rw [firstOnChart, List.filter_cons]
    by_cases hmem : r ∈ drawn
    · rw [if_pos (hany.2 hmem), if_neg (by simpa using hmem), ih hdrawn hrest]
    · rw [if_neg (mt hany.1 hmem), if_pos (by simpa using hmem), List.eraseDups_cons,
        List.filter_filter, ih (List.forall_mem_cons.2 ⟨hr, hdrawn⟩) hrest]
      -- what is drawn behind the first edge is neither the edge nor drawn before it
      congr 3
      funext edge
      by_cases heq : edge = r <;> simp [heq]

/-- Each edge is drawn once, where it occurs first. -/
theorem firstOnChart_eq_eraseDups (h : ∀ edge ∈ edges, edge.IsWordy) :
    firstOnChart [] edges = edges.eraseDups := by
  rw [firstOnChart_eq (by simp) h]
  simp

/-- No two lines of a chart are equal. -/
theorem nodup_chartLines (h : ∀ edge ∈ edges, edge.IsWordy) :
    (edges.eraseDups.map Relationship.chartLine).Nodup := by
  apply List.Nodup.map_on _ (List.nodup_eraseDups edges)
  intro a ha b hb heq
  exact (h a (List.mem_eraseDups.1 ha)).chartLine_injective (h b (List.mem_eraseDups.1 hb)) heq

end SchemaAtlas
