/-!
# Byte offsets into text

Offsets count the bytes of the UTF-8 form of a text. The functions here work on the list of
characters of a text: `byteLength` measures a run, `dropBytes?` and `takeBytes?` cut at an offset
and refuse to cut a character in two, and `slice?` is the half-open range between two offsets.

* `byteLength_append`   lengths add up
* `dropBytes?_append`   cutting behind a run leaves what follows the run
* `takeBytes?_append`   cutting off a run gives the run
* `slice?_append`       what stands between two runs can be cut out by their lengths
-/

namespace SchemaAtlas.Text

/-- The number of bytes of a run of characters. -/
def byteLength : List Char → Nat
  | [] => 0
  | c :: cs => c.utf8Size + byteLength cs

@[simp] theorem byteLength_nil : byteLength [] = 0 := rfl

@[simp] theorem byteLength_cons (c : Char) (cs : List Char) :
    byteLength (c :: cs) = c.utf8Size + byteLength cs := rfl

@[simp] theorem byteLength_append (as bs : List Char) :
    byteLength (as ++ bs) = byteLength as + byteLength bs := by
  induction as with
  | nil => simp
  | cons c as ih => simp [ih, Nat.add_assoc]

/-- What follows the first `n` bytes, if a character ends there. -/
def dropBytes? : List Char → Nat → Option (List Char)
  | cs, 0 => some cs
  | [], _ + 1 => none
  | c :: cs, n + 1 => if c.utf8Size ≤ n + 1 then dropBytes? cs (n + 1 - c.utf8Size) else none

/-- The first `n` bytes, if a character ends there. -/
def takeBytes? : List Char → Nat → Option (List Char)
  | _, 0 => some []
  | [], _ + 1 => none
  | c :: cs, n + 1 =>
    if c.utf8Size ≤ n + 1 then (takeBytes? cs (n + 1 - c.utf8Size)).map (c :: ·) else none

/-- The characters between two byte offsets, if both stand between characters of the text and the
second does not come before the first. -/
def slice? (cs : List Char) (start stop : Nat) : Option (List Char) :=
  if start ≤ stop then (dropBytes? cs start).bind (takeBytes? · (stop - start)) else none

theorem dropBytes?_append (as bs : List Char) :
    dropBytes? (as ++ bs) (byteLength as) = some bs := by
  induction as with
  | nil => simp [dropBytes?]
  | cons c as ih =>
    have hc := c.utf8Size_pos
    obtain ⟨n, hn⟩ : ∃ n, c.utf8Size + byteLength as = n + 1 := ⟨_, (Nat.succ_pred (by omega)).symm⟩
    simp only [byteLength_cons, List.cons_append, hn, dropBytes?]
    rw [if_pos (by omega), ← hn, Nat.add_sub_cancel_left, ih]

theorem takeBytes?_append (as bs : List Char) :
    takeBytes? (as ++ bs) (byteLength as) = some as := by
  induction as with
  | nil => cases bs <;> rfl
  | cons c as ih =>
    have hc := c.utf8Size_pos
    obtain ⟨n, hn⟩ : ∃ n, c.utf8Size + byteLength as = n + 1 := ⟨_, (Nat.succ_pred (by omega)).symm⟩
    simp only [byteLength_cons, List.cons_append, hn, takeBytes?]
    rw [if_pos (by omega), ← hn, Nat.add_sub_cancel_left, ih]
    rfl

/-- What stands between two runs of characters can be cut out by their lengths. -/
theorem slice?_append (front slice behind : List Char) :
    slice? (front ++ (slice ++ behind)) (byteLength front)
      (byteLength front + byteLength slice) = some slice := by
  rw [slice?, if_pos (Nat.le_add_right _ _), dropBytes?_append, Nat.add_sub_cancel_left]
  exact takeBytes?_append slice behind

end SchemaAtlas.Text
