import SchemaAtlas.Proofs.Text.LineIndex

/-!
# Places in a text

The place of an offset leads back to the text: behind a run of characters, the line of its place,
without as many code units as the place says, is what is left of that line. Places go on in the
order of the text, so two of them are told apart by what stands between them.

* `positionAt_append`       the place behind a run of characters, read character by character
* `remainder?_positionAt`   going to the place of an offset leads to what stands there
* `positionAt_before`       further on in the text, further on in lines and code units
* `positionAt_exact`        the places of all offsets of a text
-/

namespace SchemaAtlas.Text

/-! ## Walking through a text -/

/-- The place behind a run of characters that begins at the place `p`. -/
def Position.walk (p : Position) : List Char → Position
  | [] => p
  | c :: cs =>
    if c = '\n' then Position.walk ⟨p.line + 1, 0⟩ cs
    else Position.walk ⟨p.line, p.character + units c⟩ cs

/-- A walk over two texts goes over the one and then over the other. -/
theorem Position.walk_append (p : Position) (as bs : List Char) :
    p.walk (as ++ bs) = (p.walk as).walk bs := by
  induction as generalizing p with
  | nil => rfl
  | cons c as ih =>
    rw [List.cons_append, Position.walk, Position.walk]
    split
    · exact ih _
    · exact ih _

/-- A walk goes on by one line at each line feed. -/
theorem Position.line_walk (p : Position) (cs : List Char) :
    (p.walk cs).line = p.line + cs.count '\n' := by
  induction cs generalizing p with
  | nil => rfl
  | cons c cs ih =>
    rw [Position.walk, List.count_cons]
    split
    · next hc =>
      rw [ih, hc, if_pos (beq_self_eq_true _)]
      exact Nat.add_right_comm ..
    · next hc => rw [ih, if_neg (by simpa using hc), Nat.add_zero]

/-- On one line, a walk leads as many code units further as its characters take. -/
theorem Position.walk_of_not_mem (p : Position) {cs : List Char} (h : '\n' ∉ cs) :
    p.walk cs = ⟨p.line, p.character + unitLength cs⟩ := by
  induction cs generalizing p with
  | nil => rfl
  | cons c cs ih =>
    obtain ⟨hc, hcs⟩ := not_or.1 (mt List.mem_cons.2 h)
    rw [Position.walk, if_neg (Ne.symm hc), ih _ hcs, unitLength, Nat.add_assoc]

/-- From the start of a text a walk leads behind its line feeds and the code units behind the last
of them. -/
theorem Position.walk_zero (cs : List Char) :
    Position.walk ⟨0, 0⟩ cs = ⟨cs.count '\n', unitLength (lastLine cs)⟩ := by
  rcases lastLine_cases cs with ⟨hnone, hlast⟩ | ⟨front, hcs, hlast⟩
  · rw [Position.walk_of_not_mem _ hnone, hlast, List.count_eq_zero.2 hnone, Nat.zero_add]
  · have hwalk : Position.walk ⟨0, 0⟩ cs =
        (Position.mk ((Position.walk ⟨0, 0⟩ front).line + 1) 0).walk (lastLine cs) := by
      conv => lhs; rw [hcs, Position.walk_append, Position.walk, if_pos rfl]
    have hcount : cs.count '\n' = front.count '\n' + 1 := by
      conv => lhs; rw [hcs, List.count_append, List.count_cons_self, List.count_eq_zero.2 hlast]
    rw [hwalk, Position.walk_of_not_mem _ hlast, Position.line_walk, hcount, Nat.zero_add,
      Nat.zero_add]

/-- The place behind a run of characters at the start of a text. -/
theorem positionAt_append {text : String} {front behind : List Char}
    (h : text.toList = front ++ behind) :
    positionAt text (byteLength front) = Position.walk ⟨0, 0⟩ front := by
  have hsize : byteLength front ≤ text.utf8ByteSize := by
    rw [← byteLength_toList, h, byteLength_append]
    exact Nat.le_add_right _ _
  rw [positionAt, LineIndex.position?_append h (Nat.min_eq_left hsize), Position.walk_zero]
  rfl

/-! ## Going to a place -/

/-- What is left of a run of characters without its first code units, if a character ends there. -/
def dropUnits? : List Char → Nat → Option (List Char)
  | cs, 0 => some cs
  | [], _ + 1 => none
  | c :: cs, n + 1 => if units c ≤ n + 1 then dropUnits? cs (n + 1 - units c) else none

/-- What is left of the line of a place behind the place, if there is such a line and a character
ends there. -/
def remainder? (text : String) (p : Position) : Option (List Char) :=
  (text.toList.splitOn '\n')[p.line]?.bind (dropUnits? · p.character)

theorem units_pos (c : Char) : 0 < units c := by
  unfold units
  split <;> omega

theorem unitLength_append (as bs : List Char) :
    unitLength (as ++ bs) = unitLength as + unitLength bs := by
  induction as with
  | nil => simp [unitLength]
  | cons c as ih => simp [unitLength, ih, Nat.add_assoc]

/-- Without the code units of a first part, the second part is left. -/
theorem dropUnits?_append (as bs : List Char) :
    dropUnits? (as ++ bs) (unitLength as) = some bs := by
  induction as with
  | nil => simp [dropUnits?, unitLength]
  | cons c as ih =>
    have hc := units_pos c
    obtain ⟨n, hn⟩ : ∃ n, units c + unitLength as = n + 1 := ⟨_, (Nat.succ_pred (by omega)).symm⟩
    simp only [unitLength, List.cons_append, hn, dropUnits?]
    rw [if_pos (by omega), ← hn, Nat.add_sub_cancel_left, ih]

/-- The first line of what follows a run of characters without line feeds begins with this run. -/
theorem head?_splitOn_append {as : List Char} (h : '\n' ∉ as) (bs : List Char) :
    ((as ++ bs).splitOn '\n')[0]? = some (as ++ bs.takeWhile (· ≠ '\n')) := by
  have hline : '\n' ∉ as ++ bs.takeWhile (· ≠ '\n') := by
    rw [List.mem_append, not_or]
    refine ⟨h, fun hmem => ?_⟩
    have hne := List.all_eq_true.1 List.all_takeWhile _ hmem
    simp at hne
  have hsplit : as ++ bs = (as ++ bs.takeWhile (· ≠ '\n')) ++ bs.dropWhile (· ≠ '\n') := by
    rw [List.append_assoc, List.takeWhile_append_dropWhile]
  -- the line ends with the text, or at the first line feed
  cases hbehind : bs.dropWhile (· ≠ '\n') with
  | nil =>
    rw [hbehind, List.append_nil] at hsplit
    rw [hsplit, List.splitOn_eq_singleton hline]
    rfl
  | cons c behind =>
    have hc : c = '\n' := by
      have hhead := List.head?_dropWhile_not (· ≠ '\n') bs
      rw [hbehind] at hhead
      simpa using hhead
    rw [hsplit, hbehind, hc, List.splitOn_append_cons_self_of_not_mem hline]
    rfl

/-- A walk that begins behind `done` on a line leads to what is left of the line that it ends on. -/
theorem exists_line_walk (done front behind : List Char) (hdone : '\n' ∉ done) (line : Nat) :
    ∃ n, (Position.walk ⟨line, unitLength done⟩ front).line = line + n ∧
      ((done ++ (front ++ behind)).splitOn '\n')[n]?.bind
          (dropUnits? · (Position.walk ⟨line, unitLength done⟩ front).character) =
        some (behind.takeWhile (· ≠ '\n')) := by
  -- `done` is what has been passed of the line that the walk is on
  induction front generalizing done line with
  | nil =>
    refine ⟨0, rfl, ?_⟩
    rw [List.nil_append, head?_splitOn_append hdone, Option.bind_some]
    exact dropUnits?_append done _
  | cons c front ih =>
    rw [Position.walk]
    by_cases hc : c = '\n'
    · -- the walk goes on at the start of the next line
      subst hc
      obtain ⟨n, hline, hrest⟩ := ih [] (by simp) (line + 1)
      refine ⟨n + 1, ?_, ?_⟩
      · rw [if_pos rfl]
        exact hline.trans (by omega)
      · rw [if_pos rfl, List.cons_append, List.splitOn_append_cons_self_of_not_mem hdone]
        exact hrest
    · obtain ⟨n, hline, hrest⟩ := ih (done ++ [c]) (by simp [hdone, Ne.symm hc]) line
      have hdone' : unitLength (done ++ [c]) = unitLength done + units c := by
        rw [unitLength_append]
        rfl
      rw [hdone'] at hline hrest
      refine ⟨n, ?_, ?_⟩
      · rw [if_neg hc]
        exact hline
      · rw [if_neg hc]
        simpa using hrest

/-- Going to the place behind a run of characters leads to the line that stands there. -/
theorem remainder?_positionAt {text : String} {front behind : List Char}
    (h : text.toList = front ++ behind) :
    remainder? text (positionAt text (byteLength front)) =
      some (behind.takeWhile (· ≠ '\n')) := by
  obtain ⟨n, hline, hrest⟩ := exists_line_walk [] front behind (by simp) 0
  rw [positionAt_append h, remainder?, h]
  have hn : (Position.walk ⟨0, 0⟩ front).line = n := hline.trans (Nat.zero_add n)
  rw [hn]
  exact hrest

/-- A character outside the basic plane takes two code units, and none ends between them. -/
example : remainder? "é\n😀 x" ⟨1, 3⟩ = some ['x'] ∧ remainder? "é\n😀 x" ⟨1, 1⟩ = none := by
  decide

/-! ## The order of places -/

/-- Whether a place comes before another one in a text. -/
def Position.Before (p q : Position) : Prop :=
  p.line < q.line ∨ p.line = q.line ∧ p.character < q.character

theorem Position.Before.trans {p q r : Position} (hpq : p.Before q) (hqr : q.Before r) :
    p.Before r := by
  unfold Before at *
  omega

/-- A walk of at least one character leads on. -/
theorem Position.before_walk (p : Position) {cs : List Char} (h : cs ≠ []) :
    p.Before (p.walk cs) := by
  induction cs generalizing p with
  | nil => exact absurd rfl h
  | cons c cs ih =>
    -- the first character leads on, to the next line or further along this one
    have hstep : p.Before (p.walk [c]) := by
      have hc := units_pos c
      simp only [Position.walk, Before]
      split
      · exact .inl (Nat.lt_succ_self _)
      · exact .inr ⟨rfl, by simp only; omega⟩
    cases cs with
    | nil => exact hstep
    | cons c' cs =>
      have hrest := ih (p.walk [c]) (by simp)
      rw [← Position.walk_append] at hrest
      exact hstep.trans hrest

/-- Behind a longer run of characters a place comes later. -/
theorem positionAt_before {text : String} {front front' behind behind' : List Char}
    (h : text.toList = front ++ behind) (h' : text.toList = front' ++ behind')
    (hlt : byteLength front < byteLength front') :
    (positionAt text (byteLength front)).Before (positionAt text (byteLength front')) := by
  -- the shorter run is the start of the longer one
  have hle : front <+: front' ∨ front' <+: front :=
    List.prefix_or_prefix_of_prefix ⟨behind, h.symm⟩ ⟨behind', h'.symm⟩
  obtain ⟨between, rfl⟩ : front <+: front' := by
    refine hle.resolve_right ?_
    rintro ⟨between, rfl⟩
    rw [byteLength_append] at hlt
    omega
  rw [positionAt_append h, positionAt_append h', Position.walk_append]
  refine Position.before_walk _ ?_
  rintro rfl
  rw [List.append_nil] at hlt
  exact absurd hlt (Nat.lt_irrefl _)

theorem Position.Before.ne {p q : Position} (h : p.Before q) : p ≠ q := by
  rintro rfl
  unfold Before at h
  omega

/-! ## All offsets -/

/-- Whether an offset stands between two characters of a text, or at one of its ends. -/
def IsBoundary (text : String) (offset : Nat) : Prop :=
  ∃ front behind, text.toList = front ++ behind ∧ byteLength front = offset

/-- An offset behind the end of a text has the place of the end. -/
theorem positionAt_of_size_le {text : String} {offset : Nat} (h : text.utf8ByteSize ≤ offset) :
    positionAt text offset = positionAt text text.utf8ByteSize := by
  have hsize : byteLength (LineIndex.ofText text).text = text.utf8ByteSize := byteLength_toList text
  rw [positionAt, positionAt, LineIndex.position?, LineIndex.position?, hsize, Nat.min_eq_right h,
    Nat.min_self]

/-- Every offset of a text of less than 2 ^ 32 bytes is looked up, and what is found fits into 32
bits. Between two characters it is the number of line feeds before the offset and the number of
code units behind the last of them. So places go on with these offsets and tell them apart, and an
offset behind the end has the place of the end. -/
theorem positionAt_exact {text : String} (h : text.utf8ByteSize < UInt32.size) :
    (∀ offset, ((LineIndex.ofText text).position? offset).map Position.narrow =
      some (positionAt text offset)) ∧
    (∀ offset front behind, text.toList = front ++ behind →
      min offset text.utf8ByteSize = byteLength front →
        positionAt text offset = ⟨front.count '\n', unitLength (lastLine front)⟩) ∧
    (∀ offset offset', IsBoundary text offset → IsBoundary text offset' → offset < offset' →
      (positionAt text offset).Before (positionAt text offset')) ∧
    (∀ offset offset', IsBoundary text offset → IsBoundary text offset' →
      positionAt text offset = positionAt text offset' → offset = offset') ∧
    ∀ offset, text.utf8ByteSize ≤ offset →
      positionAt text offset = positionAt text text.utf8ByteSize := by
  have hbefore : ∀ offset offset', IsBoundary text offset → IsBoundary text offset' →
      offset < offset' → (positionAt text offset).Before (positionAt text offset') := by
    rintro _ _ ⟨front, behind, hfront, rfl⟩ ⟨front', behind', hfront', rfl⟩ hlt
    exact positionAt_before hfront hfront' hlt
  refine ⟨LineIndex.narrow_position? h, ?_, hbefore, ?_, fun _ => positionAt_of_size_le⟩
  · intro offset front behind hfront hoffset
    rw [positionAt, LineIndex.position?_append hfront hoffset]
    rfl
  · intro offset offset' hoffset hoffset' heq
    -- different offsets have places one of which comes before the other
    rcases Nat.lt_trichotomy offset offset' with hlt | rfl | hlt
    · exact absurd heq (hbefore _ _ hoffset hoffset' hlt).ne
    · rfl
    · exact absurd heq.symm (hbefore _ _ hoffset' hoffset hlt).ne

/-- A carriage return is part of its line, a character outside the basic plane counts twice, and the
last line is empty: from the line feed at 3 on, the offsets 4, 8 and 10 have places of their own,
and no offset is further on than 10. -/
theorem positionAt_exact_mixed :
    "é\r\n😀x\n".utf8ByteSize < UInt32.size ∧
      positionAt "é\r\n😀x\n" 3 = ⟨0, 2⟩ ∧ positionAt "é\r\n😀x\n" 4 = ⟨1, 0⟩ ∧
      positionAt "é\r\n😀x\n" 8 = ⟨1, 2⟩ ∧
      (positionAt "é\r\n😀x\n" 3).Before (positionAt "é\r\n😀x\n" 8) ∧
      positionAt "é\r\n😀x\n" 99 = ⟨2, 0⟩ := by
  have hsize : "é\r\n😀x\n".utf8ByteSize < UInt32.size := by decide
  obtain ⟨-, hplace, hbefore, -, hend⟩ := positionAt_exact hsize
  have h3 : "é\r\n😀x\n".toList = ['é', '\r'] ++ ['\n', '😀', 'x', '\n'] := by decide
  have h4 : "é\r\n😀x\n".toList = ['é', '\r', '\n'] ++ ['😀', 'x', '\n'] := by decide
  have h8 : "é\r\n😀x\n".toList = ['é', '\r', '\n', '😀'] ++ ['x', '\n'] := by decide
  have h10 : "é\r\n😀x\n".toList = ['é', '\r', '\n', '😀', 'x', '\n'] ++ [] := by decide
  refine ⟨hsize, hplace 3 _ _ h3 (by decide), hplace 4 _ _ h4 (by decide),
    hplace 8 _ _ h8 (by decide),
    hbefore 3 8 ⟨_, _, h3, by decide⟩ ⟨_, _, h8, by decide⟩ (by decide), ?_⟩
  rw [hend 99 (by decide)]
  exact hplace _ _ _ h10 (by decide)

end SchemaAtlas.Text
