import Mathlib.Data.List.TakeWhile
import SchemaAtlas.Text.Position

/-!
# Looking up lines

The offsets at which lines begin ascend, so those up to an offset come first, and halving finds how
many there are. The last of them is where the line of the offset begins: it stands behind as many
line feeds as there are before the offset.

* `partitionPoint_append`         what halving finds
* `behindLineFeeds_append`        where the lines of a text begin, part by part
* `LineIndex.position?_append`    the place behind a run of characters
* `LineIndex.position?_inside`    the place of an offset inside a character
* `LineIndex.exists_position?`    every offset has a place
-/

namespace SchemaAtlas.Text

/-! ## Halving -/

/-- Halving ends at `n` if just the elements before `n` are accepted. What is left to look at begins
at the front or with an accepted element, and goes as far as `n` at least. -/
theorem searchPartition_eq {accept : Nat → Bool} {xs : Array Nat} {n : Nat}
    (haccept : ∀ i, xs[i]?.any accept = true ↔ i < n) (base size : Nat)
    (hbase : base = 0 ∨ base < n) (hsize : n ≤ base + size) :
    searchPartition accept xs base size = n := by
  -- the places accepted are those below `n`, which stays between `base` and the end of the search
  induction size using Nat.strongRecOn generalizing base with
  | ind size ih =>
    rw [searchPartition]
    by_cases hlong : 1 < size
    · rw [if_pos hlong]
      dsimp only
      by_cases hmid : xs[base + size / 2]?.any accept = true
      · rw [if_pos hmid]
        have hlt : base + size / 2 < n := (haccept _).1 hmid
        exact ih _ (by omega) _ (.inr hlt) (by omega)
      · rw [if_neg hmid]
        have hle : ¬base + size / 2 < n := mt (haccept _).2 hmid
        exact ih _ (by omega) _ hbase (by omega)
    · rw [if_neg hlong]
      by_cases hfirst : xs[base]?.any accept = true
      · rw [if_pos hfirst]
        have hlt : base < n := (haccept _).1 hfirst
        omega
      · rw [if_neg hfirst]
        have hle : ¬base < n := mt (haccept _).2 hfirst
        omega

/-- Halving finds where the elements end that are accepted, if they come first. -/
theorem partitionPoint_append {accept : Nat → Bool} {as bs : List Nat}
    (has : ∀ a ∈ as, accept a = true) (hbs : ∀ b ∈ bs, accept b = false) :
    partitionPoint accept (as ++ bs).toArray = as.length := by
  refine searchPartition_eq (fun i => ?_) 0 _ (.inl rfl) (by simp)
  rw [List.getElem?_toArray]
  by_cases hi : i < as.length
  · simp [List.getElem?_append_left hi, hi, has]
  · rw [List.getElem?_append_right (Nat.not_lt.1 hi)]
    cases hb : bs[i - as.length]? with
    | none => simpa using hi
    | some b => simp [hbs b (List.mem_of_getElem? hb), hi]

/-! ## Where lines begin -/

/-- What stands behind the last line feed of a run of characters, or the whole run if there is
none. -/
def lastLine (cs : List Char) : List Char :=
  (cs.reverse.takeWhile (· ≠ '\n')).reverse

/-- The last line is the whole run, or a line feed stands before it. -/
theorem lastLine_cases (cs : List Char) :
    ('\n' ∉ cs ∧ lastLine cs = cs) ∨
      ∃ front, cs = front ++ '\n' :: lastLine cs ∧ '\n' ∉ lastLine cs := by
  by_cases h : '\n' ∈ cs.reverse
  · -- the last line feed is the first one from behind
    obtain ⟨line, front, hreverse, hline⟩ := List.eq_append_cons_of_mem h
    have hkept : ∀ c ∈ line, decide (c ≠ '\n') = true := fun c hc =>
      decide_eq_true fun heq => hline (heq ▸ hc)
    have hlast : lastLine cs = line.reverse := by
      rw [lastLine, hreverse, List.takeWhile_append_of_pos hkept,
        List.takeWhile_cons_of_neg (by simp), List.append_nil]
    refine .inr ⟨front.reverse, ?_, by simpa [hlast] using hline⟩
    have hcs := congrArg List.reverse hreverse
    rw [hlast]
    simpa using hcs
  · have htake : cs.reverse.takeWhile (· ≠ '\n') = cs.reverse :=
      List.takeWhile_eq_self_iff.2 fun c hc => decide_eq_true fun heq => h (heq ▸ hc)
    exact .inl ⟨by simpa using h, by rw [lastLine, htake, List.reverse_reverse]⟩

/-- The places behind the line feeds of two texts are those of the one and then those of the other.
-/
theorem behindLineFeeds_append (offset : Nat) (as bs : List Char) :
    behindLineFeeds offset (as ++ bs) =
      behindLineFeeds offset as ++ behindLineFeeds (offset + byteLength as) bs := by
  induction as generalizing offset with
  | nil => rfl
  | cons c as ih =>
    rw [List.cons_append, behindLineFeeds, behindLineFeeds, byteLength_cons, ← Nat.add_assoc]
    split
    · rw [ih, List.cons_append]
    · rw [ih]

/-- There is one place behind each line feed. -/
theorem length_behindLineFeeds (offset : Nat) (cs : List Char) :
    (behindLineFeeds offset cs).length = cs.count '\n' := by
  induction cs generalizing offset with
  | nil => rfl
  | cons c cs ih =>
    rw [behindLineFeeds, List.count_cons]
    split
    · next hc => simp [ih, hc]
    · next hc => simp [ih, hc]

/-- Lines begin behind the start of a run of characters, and not behind its end. -/
theorem bounds_of_mem_behindLineFeeds {offset n : Nat} {cs : List Char}
    (h : n ∈ behindLineFeeds offset cs) : offset < n ∧ n ≤ offset + byteLength cs := by
  induction cs generalizing offset with
  | nil => cases h
  | cons c cs ih =>
    -- every character takes at least one byte
    have hc := c.utf8Size_pos
    rw [byteLength_cons]
    rw [behindLineFeeds] at h
    split at h
    · rcases List.mem_cons.1 h with rfl | h
      · omega
      · have hbounds := ih h
        omega
    · have hbounds := ih h
      omega

/-- The last line of a run of characters begins where the last of its line feeds ends. -/
theorem exists_start_lastLine (cs : List Char) :
    ∃ front, cs = front ++ lastLine cs ∧
      (0 :: behindLineFeeds 0 cs)[cs.count '\n']? = some (byteLength front) := by
  obtain ⟨hnone, hlast⟩ | ⟨front, hcs, hlast⟩ := lastLine_cases cs
  · refine ⟨[], by rw [hlast]; rfl, ?_⟩
    rw [List.count_eq_zero.2 hnone]
    rfl
  · have hsplit : cs = (front ++ ['\n']) ++ lastLine cs := by
      rw [List.append_assoc]
      exact hcs
    -- nothing begins behind the last line feed
    have hrest : behindLineFeeds (byteLength (front ++ ['\n'])) (lastLine cs) = [] := by
      rw [← List.length_eq_zero_iff, length_behindLineFeeds, List.count_eq_zero.2 hlast]
    have hstarts : behindLineFeeds 0 cs =
        behindLineFeeds 0 front ++ [byteLength (front ++ ['\n'])] := by
      rw [hsplit, behindLineFeeds_append, Nat.zero_add, hrest, List.append_nil,
        behindLineFeeds_append, Nat.zero_add, byteLength_append]
      rfl
    have hcount : cs.count '\n' = (behindLineFeeds 0 front).length + 1 := by
      rw [← length_behindLineFeeds 0 cs, hstarts, List.length_append]
      rfl
    refine ⟨front ++ ['\n'], hsplit, ?_⟩
    rw [hcount, hstarts, List.getElem?_cons_succ, List.getElem?_concat_length]

/-! ## Offsets -/

theorem byteLength_toList (text : String) : byteLength text.toList = text.utf8ByteSize := by
  have h : ∀ cs : List Char, byteLength cs = (String.ofList cs).utf8ByteSize := by
    intro cs
    induction cs with
    | nil => rfl
    | cons c cs ih =>
      rw [byteLength_cons, ih, String.ofList_cons, String.utf8ByteSize_append,
        String.utf8ByteSize_singleton]
  rw [h, String.ofList_toList]

/-- A text has no more occurrences of a character than bytes. -/
theorem count_le_byteLength (c : Char) (cs : List Char) : cs.count c ≤ byteLength cs := by
  induction cs with
  | nil => exact Nat.le_refl 0
  | cons d cs ih =>
    have hd := d.utf8Size_pos
    rw [List.count_cons, byteLength_cons]
    split <;> omega

/-- A character takes no more code units than bytes. -/
theorem units_le_utf8Size (c : Char) : units c ≤ c.utf8Size := by
  unfold units Char.utf8Size
  simp only [Char.toNat, UInt32.le_iff_toNat_le]
  split <;> grind

/-- A text takes no more code units than bytes. -/
theorem unitLength_le_byteLength (cs : List Char) : unitLength cs ≤ byteLength cs := by
  induction cs with
  | nil => exact Nat.le_refl 0
  | cons c cs ih => exact Nat.add_le_add (units_le_utf8Size c) ih

/-- An offset that is not behind the end stands between two characters or inside one. -/
theorem exists_around_offset {cs : List Char} {offset : Nat} (h : offset ≤ byteLength cs) :
    (∃ front behind, cs = front ++ behind ∧ offset = byteLength front) ∨
      ∃ front c behind, cs = front ++ c :: behind ∧ byteLength front < offset ∧
        offset < byteLength front + c.utf8Size := by
  induction cs generalizing offset with
  | nil => exact .inl ⟨[], [], rfl, Nat.le_zero.1 h⟩
  | cons c cs ih =>
    rcases Nat.eq_zero_or_pos offset with rfl | hpos
    · exact .inl ⟨[], c :: cs, rfl, rfl⟩
    rcases Nat.lt_or_ge offset c.utf8Size with hlt | hge
    · exact .inr ⟨[], c, cs, rfl, hpos, by simpa using hlt⟩
    -- the offset stands behind the first character
    rw [byteLength_cons] at h
    have hrest : offset - c.utf8Size ≤ byteLength cs := by omega
    rcases ih hrest with hbetween | hinside
    · obtain ⟨front, behind, rfl, hoffset⟩ := hbetween
      exact .inl ⟨c :: front, behind, rfl, by rw [byteLength_cons]; omega⟩
    · obtain ⟨front, d, behind, rfl, hfront, hend⟩ := hinside
      refine .inr ⟨c :: front, d, behind, rfl, ?_, ?_⟩ <;> rw [byteLength_cons] <;> omega

/-- Nothing ends inside a character. -/
theorem takeBytes?_inside {between behind : List Char} {c : Char} {n : Nat}
    (hlt : byteLength between < n) (hend : n < byteLength between + c.utf8Size) :
    takeBytes? (between ++ c :: behind) n = none := by
  induction between generalizing n with
  | nil =>
    obtain ⟨m, rfl⟩ : ∃ m, n = m + 1 := ⟨_, (Nat.succ_pred (Nat.ne_of_gt hlt)).symm⟩
    rw [List.nil_append, takeBytes?, if_neg (by simpa using hend)]
  | cons d between ih =>
    rw [byteLength_cons] at hlt hend
    obtain ⟨m, rfl⟩ : ∃ m, n = m + 1 := ⟨n - 1, by omega⟩
    rw [List.cons_append, takeBytes?, if_pos (by omega), ih (by omega) (by omega)]
    rfl

/-- No slice ends inside a character. -/
theorem slice?_inside {front between behind : List Char} {c : Char} {offset : Nat}
    (hlt : byteLength (front ++ between) < offset)
    (hend : offset < byteLength (front ++ between) + c.utf8Size) :
    slice? (front ++ (between ++ c :: behind)) (byteLength front) offset = none := by
  rw [byteLength_append] at hlt hend
  rw [slice?, if_pos (by omega), dropBytes?_append]
  exact takeBytes?_inside (by omega) (by omega)

/-! ## Places -/

namespace LineIndex

variable {text : String} {front behind : List Char}

/-- What an offset is looked up as: the last line that begins in a run of characters, if the lines
behind this run begin behind the offset. -/
theorem position?_eq (h : text.toList = front ++ behind) {offset : Nat}
    (hfront : byteLength front ≤ min offset text.utf8ByteSize)
    (hbehind : ∀ n ∈ behindLineFeeds (byteLength front) behind, min offset text.utf8ByteSize < n) :
    ∃ done, front = done ++ lastLine front ∧
      (ofText text).position? offset = some ⟨front.count '\n',
        ((slice? text.toList (byteLength done) (min offset text.utf8ByteSize)).map
          unitLength).getD 0⟩ := by
  obtain ⟨done, hdone, hstart⟩ := exists_start_lastLine front
  refine ⟨done, hdone, ?_⟩
  have hstarts : (ofText text).starts =
      ((0 :: behindLineFeeds 0 front) ++ behindLineFeeds (byteLength front) behind).toArray := by
    rw [ofText, h, behindLineFeeds_append, Nat.zero_add, List.cons_append]
  have hline : partitionPoint (· ≤ min offset text.utf8ByteSize) (ofText text).starts =
      front.count '\n' + 1 := by
    rw [hstarts, partitionPoint_append, List.length_cons, length_behindLineFeeds]
    · intro n hn
      rcases List.mem_cons.1 hn with rfl | hn
      · simp
      · have hbounds := bounds_of_mem_behindLineFeeds hn
        exact decide_eq_true (by omega)
    · intro n hn
      have hlt := hbehind n hn
      exact decide_eq_false (by omega)
  -- the line that is found begins at its start in the table
  have hfound : (ofText text).starts[front.count '\n']? = some (byteLength done) := by
    rw [hstarts, List.getElem?_toArray, List.getElem?_append_left, hstart]
    rw [List.length_cons, length_behindLineFeeds]
    exact Nat.lt_succ_self _
  have hsize : byteLength (ofText text).text = text.utf8ByteSize := byteLength_toList text
  rw [position?, hsize, hline]
  simp only [hfound]
  rfl

/-- An offset behind a run of characters is looked up as the number of line feeds of the run, and
the code units behind the last of them. -/
theorem position?_append (h : text.toList = front ++ behind) {offset : Nat}
    (hoffset : min offset text.utf8ByteSize = byteLength front) :
    (ofText text).position? offset =
      some ⟨front.count '\n', unitLength (lastLine front)⟩ := by
  obtain ⟨done, hdone, hposition⟩ := position?_eq h hoffset.ge fun n hn => by
    have hbounds := bounds_of_mem_behindLineFeeds hn
    omega
  have hcut : text.toList = done ++ (lastLine front ++ behind) := by
    rw [← List.append_assoc, ← hdone, h]
  have hlength : byteLength front = byteLength done + byteLength (lastLine front) := by
    rw [← byteLength_append, ← hdone]
  rw [hposition, hoffset, hcut, hlength, slice?_append]
  rfl

/-- An offset inside a character is looked up as the start of the line of this character. -/
theorem position?_inside {c : Char} (h : text.toList = front ++ c :: behind) {offset : Nat}
    (hfront : byteLength front < offset) (hend : offset < byteLength front + c.utf8Size) :
    (ofText text).position? offset = some ⟨front.count '\n', 0⟩ := by
  have hsize : text.utf8ByteSize = byteLength front + (c.utf8Size + byteLength behind) := by
    rw [← byteLength_toList, h, byteLength_append, byteLength_cons]
  have hmin : min offset text.utf8ByteSize = offset := Nat.min_eq_left (by omega)
  obtain ⟨done, hdone, hposition⟩ := position?_eq h (by rw [hmin]; exact hfront.le) fun n hn => by
    -- a line feed takes one byte, so no offset is inside it
    rw [behindLineFeeds] at hn
    split at hn
    · next hc =>
      have hone : c.utf8Size = 1 := by rw [hc]; rfl
      omega
    · have hbounds := bounds_of_mem_behindLineFeeds hn
      omega
  have hcut : text.toList = done ++ (lastLine front ++ c :: behind) := by
    rw [← List.append_assoc, ← hdone, h]
  have hlength : byteLength (done ++ lastLine front) = byteLength front := by
    rw [← hdone]
  rw [hposition, hmin, hcut, slice?_inside (by omega) (by omega)]
  rfl

/-- Every offset is looked up without fail, and neither the line nor the code units are more than
the bytes of the text. -/
theorem exists_position? (text : String) (offset : Nat) :
    ∃ p, (ofText text).position? offset = some p ∧ p.line ≤ text.utf8ByteSize ∧
      p.character ≤ text.utf8ByteSize := by
  -- neither the lines nor the code units of a line are more than the bytes
  have hbounds : ∀ front behind, text.toList = front ++ behind →
      front.count '\n' ≤ text.utf8ByteSize ∧ unitLength (lastLine front) ≤ text.utf8ByteSize := by
    intro front behind h
    obtain ⟨done, hdone, -⟩ := exists_start_lastLine front
    have hsize : text.utf8ByteSize = byteLength front + byteLength behind := by
      rw [← byteLength_toList, h, byteLength_append]
    have hfront : byteLength front = byteLength done + byteLength (lastLine front) := by
      rw [← byteLength_append, ← hdone]
    have hcount := count_le_byteLength '\n' front
    have hunits := unitLength_le_byteLength (lastLine front)
    omega
  have hmin : min offset text.utf8ByteSize ≤ byteLength text.toList := by
    rw [byteLength_toList]
    exact Nat.min_le_right _ _
  -- between two characters, or inside one
  rcases exists_around_offset hmin with hbetween | hinside
  · obtain ⟨front, behind, h, hoffset⟩ := hbetween
    exact ⟨_, position?_append h hoffset, hbounds front behind h⟩
  · obtain ⟨front, c, behind, h, hfront, hend⟩ := hinside
    have hsize : text.utf8ByteSize = byteLength front + (c.utf8Size + byteLength behind) := by
      rw [← byteLength_toList, h, byteLength_append, byteLength_cons]
    exact ⟨_, position?_inside h (by omega) (by omega), (hbounds _ _ h).1, Nat.zero_le _⟩

/-- In a text of less than 2 ^ 32 bytes, cutting places to 32 bits loses nothing. -/
theorem narrow_position? (h : text.utf8ByteSize < UInt32.size) (offset : Nat) :
    ((ofText text).position? offset).map Position.narrow = some (positionAt text offset) := by
  obtain ⟨p, hp, hline, hcharacter⟩ := exists_position? text offset
  rw [positionAt, hp, Option.map_some, Option.getD_some, Position.narrow,
    Nat.mod_eq_of_lt (Nat.lt_of_le_of_lt hline h),
    Nat.mod_eq_of_lt (Nat.lt_of_le_of_lt hcharacter h)]

end LineIndex

end SchemaAtlas.Text
