import SchemaAtlas.FileUri.Basic
import SchemaAtlas.FileUri.Percent
import SchemaAtlas.Proofs.FilePath.Order

/-!
# What a URI tells of a path

Encoding loses nothing: the bytes of a text can be read back from its percent-encoded form, and
the text from its bytes. An encoded step holds no slash, so the steps of a path can be told apart
in its URI, and no two normal paths have one URI.

* `Text.decodeUtf8_utf8`   the text back from its bytes
* `decodeBytes_encode`     the bytes back from the percent-encoded form
* `ofPath_inj`             a normal path is known by its URI
-/

/-! ## Bytes -/

namespace SchemaAtlas.Text

/-- A first byte with all the bytes that it calls for is read as one character. -/
theorem decodeUtf8_of_lead {b count low high bits point n : Nat} {rest : List Nat}
    (hlead : utf8Lead? b = some (count, low, high, bits))
    (htail : utf8Tail count low high bits rest = (some point, n)) :
    decodeUtf8 (b :: rest) = Char.ofNat point :: decodeUtf8 (rest.drop n) := by
  rw [decodeUtf8, hlead]
  simp [htail]

/-- A byte within the bounds is read, and adds six bits. -/
theorem utf8Tail_cons {count low high bits b point n : Nat} {rest : List Nat} (hlow : low ≤ b)
    (hhigh : b ≤ high)
    (htail : utf8Tail count 0x80 0xBF (bits * 0x40 + (b - 0x80)) rest = (some point, n)) :
    utf8Tail (count + 1) low high bits (b :: rest) = (some point, n + 1) := by
  rw [utf8Tail, if_pos ⟨hlow, hhigh⟩, htail]

/-- When no more bytes are called for, the bits are the character. -/
theorem utf8Tail_zero {low high bits point : Nat} (rest : List Nat) (h : bits = point) :
    utf8Tail 0 low high bits rest = (some point, 0) := by
  rw [utf8Tail, h]

/-- The first of two bytes. -/
theorem utf8Lead?_two {n : Nat} (hlow : 0x80 ≤ n) (hhigh : n < 0x800) :
    utf8Lead? (0xC0 + n / 0x40) = some (1, 0x80, 0xBF, n / 0x40) := by
  unfold utf8Lead?
  rw [if_neg (by omega), if_pos (by omega), Nat.add_sub_cancel_left]

/-- The first of three bytes, which bounds the second one. -/
theorem utf8Lead?_three {n : Nat} (hlow : 0x800 ≤ n) (hhigh : n < 0x10000)
    (hvalid : n < 0xD800 ∨ 0xDFFF < n) :
    ∃ low high, utf8Lead? (0xE0 + n / 0x1000) = some (2, low, high, n / 0x1000) ∧
      low ≤ 0x80 + n / 0x40 % 0x40 ∧ 0x80 + n / 0x40 % 0x40 ≤ high := by
  unfold utf8Lead?
  rw [if_neg (by omega), if_neg (by omega)]
  by_cases hfirst : n / 0x1000 = 0
  · exact ⟨0xA0, 0xBF, by rw [hfirst, if_pos rfl], by omega, by omega⟩
  rw [if_neg (by omega)]
  by_cases hlast : n / 0x1000 = 0xD
  · exact ⟨0x80, 0x9F, by rw [hlast, if_pos rfl], by omega, by omega⟩
  rw [if_neg (by omega), if_pos (by omega), Nat.add_sub_cancel_left]
  exact ⟨0x80, 0xBF, rfl, by omega, by omega⟩

/-- The first of four bytes, which bounds the second one. -/
theorem utf8Lead?_four {n : Nat} (hlow : 0x10000 ≤ n) (hhigh : n < 0x110000) :
    ∃ low high, utf8Lead? (0xF0 + n / 0x40000) = some (3, low, high, n / 0x40000) ∧
      low ≤ 0x80 + n / 0x1000 % 0x40 ∧ 0x80 + n / 0x1000 % 0x40 ≤ high := by
  unfold utf8Lead?
  rw [if_neg (by omega), if_neg (by omega), if_neg (by omega), if_neg (by omega),
    if_neg (by omega)]
  by_cases hfirst : n / 0x40000 = 0
  · exact ⟨0x90, 0xBF, by rw [hfirst, if_pos rfl], by omega, by omega⟩
  rw [if_neg (by omega)]
  by_cases hlast : n / 0x40000 = 4
  · exact ⟨0x80, 0x8F, by rw [hlast, if_pos rfl], by omega, by omega⟩
  rw [if_neg (by omega), if_pos (by omega), Nat.add_sub_cancel_left]
  exact ⟨0x80, 0xBF, rfl, by omega, by omega⟩

/-- The first byte of a character calls for the bytes that follow it, and together they tell the
character. -/
theorem exists_utf8Bytes (c : Char) :
    ∃ lead tail count low high bits, utf8Bytes c = lead :: tail ∧
      utf8Lead? lead = some (count, low, high, bits) ∧
      ∀ bytes, utf8Tail count low high bits (tail ++ bytes) = (some c.toNat, tail.length) := by
  have hvalid : c.toNat < 0xD800 ∨ 0xDFFF < c.toNat ∧ c.toNat < 0x110000 := c.valid
  unfold utf8Bytes
  generalize c.toNat = n at *
  -- one to four bytes, by the size of the character
  by_cases hone : n < 0x80
  · have hlead : utf8Lead? n = some (0, 0, 0, n) := if_pos hone
    exact ⟨n, [], 0, 0, 0, n, if_pos hone, hlead, fun bytes => utf8Tail_zero _ rfl⟩
  by_cases htwo : n < 0x800
  · have hlead := utf8Lead?_two (Nat.not_lt.1 hone) htwo
    refine ⟨_, [0x80 + n % 0x40], 1, 0x80, 0xBF, _, ?_, hlead, fun bytes => ?_⟩
    · simp only [if_neg hone, if_pos htwo]
    · exact utf8Tail_cons (by omega) (by omega) (utf8Tail_zero _ (by omega))
  by_cases hthree : n < 0x10000
  · obtain ⟨low, high, hlead, hlow, hhigh⟩ :=
      utf8Lead?_three (Nat.not_lt.1 htwo) hthree (hvalid.imp_right And.left)
    -- the second byte keeps within the bounds that the first one sets
    refine ⟨_, [0x80 + n / 0x40 % 0x40, 0x80 + n % 0x40], 2, low, high, _, ?_, hlead,
      fun bytes => ?_⟩
    · simp only [if_neg hone, if_neg htwo, if_pos hthree]
    · exact utf8Tail_cons hlow hhigh
        (utf8Tail_cons (by omega) (by omega) (utf8Tail_zero _ (by omega)))
  · obtain ⟨low, high, hlead, hlow, hhigh⟩ := utf8Lead?_four (n := n) (by omega) (by omega)
    refine ⟨_, [0x80 + n / 0x1000 % 0x40, 0x80 + n / 0x40 % 0x40, 0x80 + n % 0x40], 3, low, high,
      _, ?_, hlead, fun bytes => ?_⟩
    · simp only [if_neg hone, if_neg htwo, if_neg hthree]
    · exact utf8Tail_cons hlow hhigh (utf8Tail_cons (by omega) (by omega)
        (utf8Tail_cons (by omega) (by omega) (utf8Tail_zero _ (by omega))))

/-- A character is read from its bytes. -/
theorem decodeUtf8_utf8Bytes (c : Char) (bytes : List Nat) :
    decodeUtf8 (utf8Bytes c ++ bytes) = c :: decodeUtf8 bytes := by
  obtain ⟨lead, tail, count, low, high, bits, hbytes, hlead, htail⟩ := exists_utf8Bytes c
  rw [hbytes, List.cons_append, decodeUtf8_of_lead hlead (htail bytes), Char.ofNat_toNat,
    List.drop_left]

/-- A text is read from its bytes. -/
theorem decodeUtf8_utf8 (cs : List Char) : decodeUtf8 (utf8 cs) = cs := by
  induction cs with
  | nil => rw [utf8, List.flatMap_nil, decodeUtf8]
  | cons c cs ih =>
    have hcons : utf8 (c :: cs) = utf8Bytes c ++ utf8 cs := rfl
    rw [hcons, decodeUtf8_utf8Bytes, ih]

/-- The bytes of a text are well-formed. -/
theorem isUtf8_utf8 (cs : List Char) : isUtf8 (utf8 cs) = true := by
  induction cs with
  | nil => rw [utf8, List.flatMap_nil, isUtf8]
  | cons c cs ih =>
    obtain ⟨lead, tail, count, low, high, bits, hbytes, hlead, htail⟩ := exists_utf8Bytes c
    have hcons : utf8 (c :: cs) = lead :: (tail ++ utf8 cs) := by
      rw [utf8, List.flatMap_cons, hbytes]
      rfl
    rw [hcons, isUtf8, hlead]
    simp only [htail, List.drop_left, ih, Option.isSome_some, Bool.and_self]

/-- Bytes are numbers below 256. -/
theorem lt_of_mem_utf8 {b : Nat} {cs : List Char} (h : b ∈ utf8 cs) : b < 0x100 := by
  obtain ⟨c, -, hb⟩ := List.mem_flatMap.1 h
  have hvalid : c.toNat < 0xD800 ∨ 0xDFFF < c.toNat ∧ c.toNat < 0x110000 := c.valid
  unfold utf8Bytes at hb
  generalize c.toNat = n at *
  simp only at hb
  split at hb
  · simp only [List.mem_cons, List.not_mem_nil, or_false] at hb
    omega
  · split at hb
    · simp only [List.mem_cons, List.not_mem_nil, or_false] at hb
      omega
    · split at hb <;> simp only [List.mem_cons, List.not_mem_nil, or_false] at hb <;> omega

/-- A digit in upper case is read as what it was written for. -/
theorem hexDigit?_upperHex {n : Nat} (h : n < 16) : hexDigit? (upperHex n) = some n := by
  have hall : ∀ n < 16, hexDigit? (upperHex n) = some n := by decide
  exact hall n h

end SchemaAtlas.Text

namespace SchemaAtlas.FileUri

/-! ## Percent-encoded text -/

/-- A byte is read from its percent-encoded form. -/
theorem decodeBytes_encodeByte {b : Nat} (h : b < 0x100) (cs : List Char) :
    decodeBytes (encodeByte b ++ cs) = b :: decodeBytes cs := by
  unfold encodeByte
  cases hb : isEncoded b with
  | true =>
    simp only [if_true, List.cons_append, List.nil_append]
    rw [decodeBytes, Text.hexDigit?_upperHex (by omega), Text.hexDigit?_upperHex (by omega)]
    simp only [List.cons.injEq, and_true]
    omega
  | false =>
    -- what stands for itself is a character of one byte, and no percent sign
    have hplain : ∀ b < 0x100, isEncoded b = false →
        Char.ofNat b ≠ '%' ∧ Text.utf8Bytes (Char.ofNat b) = [b] := by decide +kernel
    obtain ⟨hpercent, hbytes⟩ := hplain b h hb
    simp only [Bool.false_eq_true, if_false, List.cons_append, List.nil_append]
    rw [decodeBytes, hbytes]
    · rfl
    · intro x y rest heq
      exact absurd heq hpercent

/-- The bytes of a text are read from its percent-encoded form. -/
theorem decodeBytes_encode (cs : List Char) : decodeBytes (encode cs) = Text.utf8 cs := by
  have hbytes : ∀ bytes : List Nat, (∀ b ∈ bytes, b < 0x100) →
      decodeBytes (bytes.flatMap encodeByte) = bytes := by
    intro bytes hlt
    -- byte by byte, whether it is encoded or stands for itself
    induction bytes with
    | nil => rfl
    | cons b bytes ih =>
      rw [List.flatMap_cons, decodeBytes_encodeByte (hlt b (by simp)),
        ih fun b hb => hlt b (List.mem_cons_of_mem _ hb)]
  exact hbytes _ fun b hb => Text.lt_of_mem_utf8 hb

/-- Different texts have different percent-encoded forms. -/
theorem encode_injective : Function.Injective encode := by
  intro as bs h
  have hbytes : Text.utf8 as = Text.utf8 bs := by
    rw [← decodeBytes_encode, ← decodeBytes_encode, h]
  rw [← Text.decodeUtf8_utf8 as, ← Text.decodeUtf8_utf8 bs, hbytes]

/-- A percent-encoded text holds no slash. -/
theorem slash_notMem_encode (cs : List Char) : '/' ∉ encode cs := by
  have hall : ∀ b < 0x100, '/' ∉ encodeByte b := by decide +kernel
  intro h
  obtain ⟨b, hb, hslash⟩ := List.mem_flatMap.1 h
  exact hall b (Text.lt_of_mem_utf8 hb) hslash

/-! ## Paths -/

/-- The path of a URI, from the encoded steps. -/
def stepsText (steps : List (List Char)) : List Char :=
  if steps.isEmpty then ['/'] else steps.flatMap ('/' :: ·)

/-- Steps with a slash in front of each are a slash and the steps with slashes between them. -/
theorem flatMap_slash {steps : List (List Char)} (h : steps ≠ []) :
    steps.flatMap ('/' :: ·) = '/' :: FilePath.joinPieces steps := by
  -- step by step, but the last one has no slash behind it
  induction steps with
  | nil => exact absurd rfl h
  | cons step steps ih =>
    cases steps with
    | nil => simp [FilePath.joinPieces]
    | cons next more => rw [List.flatMap_cons, ih (by simp), FilePath.joinPieces]; rfl

/-- The steps can be told apart in the path of a URI. -/
theorem pieces_stepsText {steps : List (List Char)} (h : ∀ step ∈ steps, '/' ∉ step)
    (hne : steps ≠ []) : FilePath.pieces (stepsText steps) = [] :: steps := by
  rw [stepsText, if_neg (by simpa using hne), flatMap_slash hne, FilePath.pieces, if_pos rfl,
    FilePath.pieces_joinPieces h hne]

/-- Different lists of steps make different paths of a URI. -/
theorem stepsText_inj {as bs : List (List Char)} (has : ∀ a ∈ as, '/' ∉ a ∧ a ≠ [])
    (hbs : ∀ b ∈ bs, '/' ∉ b ∧ b ≠ []) (h : stepsText as = stepsText bs) : as = bs := by
  have hpieces := congrArg FilePath.pieces h
  have hroot : FilePath.pieces (stepsText []) = [[], []] := by decide
  -- the root has one empty piece, which is no step
  by_cases hnil : as = []
  · by_cases hnil' : bs = []
    · rw [hnil, hnil']
    · rw [hnil, hroot, pieces_stepsText (fun b hb => (hbs b hb).1) hnil'] at hpieces
      obtain rfl : [[]] = bs := (List.cons.inj hpieces).2
      exact absurd rfl (hbs [] (by simp)).2
  · by_cases hnil' : bs = []
    · rw [hnil', hroot, pieces_stepsText (fun a ha => (has a ha).1) hnil] at hpieces
      obtain rfl : as = [[]] := (List.cons.inj hpieces).2
      exact absurd rfl (has [] (by simp)).2
    · rw [pieces_stepsText (fun a ha => (has a ha).1) hnil,
        pieces_stepsText (fun b hb => (hbs b hb).1) hnil'] at hpieces
      exact (List.cons.inj hpieces).2

/-- The encoded steps of a path. -/
def encodedSteps (p : FilePath) : List (List Char) :=
  (p.route.steps.map fun step => step.text.toList).map encode

/-- The URI of a path from the root is its encoded steps behind the scheme. -/
theorem toList_ofPath_of_isAbsolute {p : FilePath} (h : p.isAbsolute = true) :
    (ofPath p).toList = "file://".toList ++ stepsText (encodedSteps p) := by
  simp only [ofPath, if_pos h, String.toList_append, String.toList_ofList, encodedSteps,
    List.map_map]
  rfl

/-- The URI of any other path is its text behind the scheme. -/
theorem toList_ofPath_of_not_isAbsolute {p : FilePath} (h : ¬p.isAbsolute = true) :
    (ofPath p).toList = "file://".toList ++ p.text.toList := by
  rw [ofPath, if_neg h, String.toList_append]

/-- The path of a URI begins with a slash. -/
theorem head?_stepsText (steps : List (List Char)) : (stepsText steps).head? = some '/' := by
  cases steps <;> rfl

/-- The steps of a normal path are not empty, and neither are they when they are encoded. -/
theorem of_mem_encodedSteps {p : FilePath} (hp : p.IsNormal) {step : List Char}
    (h : step ∈ encodedSteps p) : '/' ∉ step ∧ step ≠ [] := by
  obtain ⟨piece, hpiece, rfl⟩ := List.mem_map.1 h
  obtain ⟨s, hs, rfl⟩ := List.mem_map.1 hpiece
  refine ⟨slash_notMem_encode _, fun hnil => ?_⟩
  have hplain := (hp.isPlain hs).2
  rw [encode_injective (hnil.trans (by rfl : [] = encode []))] at hplain
  cases hplain

/-- The texts of the steps of a normal path tell its route. -/
theorem eq_of_map_text {p q : FilePath} (hp : p.IsNormal) (hq : q.IsNormal)
    (hrooted : p.isAbsolute = q.isAbsolute)
    (h : (p.route.steps.map fun step => step.text.toList) =
      q.route.steps.map fun step => step.text.toList) : p = q := by
  have hspelling : p.route.toFilePath = q.route.toFilePath := by
    have hroot : p.route.rooted = q.route.rooted := hrooted
    rw [FilePath.Route.toFilePath, FilePath.Route.toFilePath, h, hroot]
  refine FilePath.eq_of_route hp hq ?_
  rw [← FilePath.route_toFilePath fun _ => hp.isPlain, hspelling,
    FilePath.route_toFilePath fun _ => hq.isPlain]

/-- A normal path is known by its URI. -/
theorem ofPath_inj {p q : FilePath} (hp : p.IsNormal) (hq : q.IsNormal)
    (h : ofPath p = ofPath q) : p = q := by
  have htext := congrArg String.toList h
  by_cases hpa : p.isAbsolute = true
  · rw [toList_ofPath_of_isAbsolute hpa] at htext
    by_cases hqa : q.isAbsolute = true
    · rw [toList_ofPath_of_isAbsolute hqa, List.append_cancel_left_eq] at htext
      -- the steps can be read off the text, since none of them holds a slash
      have hsteps := stepsText_inj (fun _ => of_mem_encodedSteps hp)
        (fun _ => of_mem_encodedSteps hq) htext
      exact eq_of_map_text hp hq (hpa.trans hqa.symm)
        ((List.map_inj_right fun _ _ heq => encode_injective heq).1 hsteps)
    · -- a path that does not start at the root has no slash behind the two of the scheme
      rw [toList_ofPath_of_not_isAbsolute hqa, List.append_cancel_left_eq] at htext
      exact absurd (by simp [FilePath.isAbsolute, ← htext, head?_stepsText]) hqa
  · rw [toList_ofPath_of_not_isAbsolute hpa] at htext
    by_cases hqa : q.isAbsolute = true
    · rw [toList_ofPath_of_isAbsolute hqa, List.append_cancel_left_eq] at htext
      exact absurd (by simp [FilePath.isAbsolute, htext, head?_stepsText]) hpa
    · rw [toList_ofPath_of_not_isAbsolute hqa, List.append_cancel_left_eq] at htext
      have hsame : p.text = q.text := String.toList_injective htext
      calc p = ⟨p.text⟩ := rfl
        _ = ⟨q.text⟩ := by rw [hsame]
        _ = q := rfl

end SchemaAtlas.FileUri
