import Mathlib.Data.List.TakeWhile
import SchemaAtlas.FileUri.Decode
import SchemaAtlas.Proofs.FilePath.Joining
import SchemaAtlas.Proofs.FileUri.Encoding

/-!
# Back from the URI of a path

The URI of a path is read by other rules than it is written by. The two agree on every normal path
from the root that goes nowhere up: none of its encoded steps holds a character that means
something in a URL, and none is a dot segment. What is left is the slash that a path gets behind it
which ends in a drive.

* `readPath_slash_joinPieces`   the segments of a path back from its encoded steps
* `toPath_ofPath`         the path back from its URI
* `isAbsolute_of_toPath`   whatever path comes of a URI starts at the root
* `route_withSlash`   a slash behind a path makes no difference to its route
-/

namespace SchemaAtlas.FileUri

/-! ## Encoded steps -/

/-- Whether a character means nothing in a URL but itself, or belongs to an encoded byte. -/
def IsInert (c : Char) : Prop :=
  isBreak c = false ∧ isEitherSlash c = false ∧ endsPath c = false ∧ 0x20 < c.toNat

instance (c : Char) : Decidable (IsInert c) :=
  inferInstanceAs (Decidable (_ ∧ _))

/-- The characters of a percent-encoded text mean nothing in a URL but themselves. -/
theorem isInert_of_mem_encode {cs : List Char} {c : Char} (h : c ∈ encode cs) : IsInert c := by
  have hall : ∀ b < 0x100, (encodeByte b).all (fun c => decide (IsInert c)) := by decide +kernel
  obtain ⟨b, hb, hc⟩ := List.mem_flatMap.1 h
  have hinert := List.all_eq_true.1 (hall b (Text.lt_of_mem_utf8 hb)) c hc
  exact of_decide_eq_true hinert

/-- Whether a text is read as a segment that stands for itself. -/
structure IsSegment (segment : List Char) : Prop where
  isInert : ∀ c ∈ segment, IsInert c
  isDot : isDot segment = false
  isDoubleDot : isDoubleDot segment = false

/-- A percent-encoded step stands for itself, if it is no dot segment. -/
theorem isSegment_encode {cs : List Char} (hdot : cs ≠ ['.']) (hdots : cs ≠ ['.', '.']) :
    IsSegment (encode cs) where
  isInert := fun _ => isInert_of_mem_encode
  isDot := by
    have hdecode : Text.decodeUtf8 ['.'.toNat] = ['.'] := Text.decodeUtf8_utf8 ['.']
    rw [isDot, decodeBytes_encode, decide_eq_false_iff_not]
    intro h
    rw [← h, Text.decodeUtf8_utf8] at hdecode
    exact hdot hdecode
  isDoubleDot := by
    -- what is decoded is the step itself, and that is neither of the two dots
    have hdecode : Text.decodeUtf8 ['.'.toNat, '.'.toNat] = ['.', '.'] :=
      Text.decodeUtf8_utf8 ['.', '.']
    rw [isDoubleDot, decodeBytes_encode, decide_eq_false_iff_not]
    intro h
    rw [← h, Text.decodeUtf8_utf8] at hdecode
    exact hdots hdecode

/-! ## Segments -/

section Split

variable {isSeparator : Char → Bool}

/-- A text without separators is one segment. -/
theorem splitAtEach_of_none {cs : List Char} (h : ∀ c ∈ cs, isSeparator c = false) :
    splitAtEach isSeparator cs = [cs] := by
  induction cs with
  | nil => rfl
  | cons c cs ih =>
    have hc : isSeparator c = false := h c (by simp)
    rw [splitAtEach, ih fun d hd => h d (List.mem_cons_of_mem _ hd)]
    simp [hc]

/-- The first segment ends at the first separator. -/
theorem splitAtEach_append {cs : List Char} (h : ∀ c ∈ cs, isSeparator c = false) {c : Char}
    (hc : isSeparator c = true) (rest : List Char) :
    splitAtEach isSeparator (cs ++ c :: rest) = cs :: splitAtEach isSeparator rest := by
  induction cs with
  | nil => simp [splitAtEach, hc]
  | cons d cs ih =>
    have hd : isSeparator d = false := h d (by simp)
    rw [List.cons_append, splitAtEach, ih fun x hx => h x (List.mem_cons_of_mem _ hx)]
    simp [hd]

/-- Segments can be told apart if none of them holds what parts them. -/
theorem splitAtEach_joinPieces {segments : List (List Char)}
    (h : ∀ segment ∈ segments, ∀ c ∈ segment, isSeparator c = false)
    (hslash : isSeparator '/' = true) (hne : segments ≠ []) :
    splitAtEach isSeparator (FilePath.joinPieces segments) = segments := by
  induction segments with
  | nil => exact absurd rfl hne
  | cons segment segments ih =>
    cases segments with
    | nil => exact splitAtEach_of_none (h segment (by simp))
    | cons next more =>
      rw [FilePath.joinPieces, splitAtEach_append (h segment (by simp)) hslash,
        ih (fun x hx => h x (List.mem_cons_of_mem _ hx)) (by simp)]

end Split

/-- A segment with another before it is read as it stands: the rules for drives are those of first
segments. -/
theorem PathSoFar.next_of_isSegment {path : PathSoFar} {isLast : Bool} {segment : List Char}
    (h : IsSegment segment) (hne : path.segments ≠ []) :
    path.next .files isLast segment = { path with segments := segment :: path.segments } := by
  have hfilter : segment.filter (!isBreak ·) = segment :=
    List.filter_eq_self.2 fun c hc => by simp [(h.isInert c hc).1]
  simp [next, push, hne, hfilter, h.isDot, h.isDoubleDot]

/-- Segments with another before them are read as they stand. -/
theorem PathSoFar.read_of_isSegment {path : PathSoFar} {segments : List (List Char)}
    (h : ∀ segment ∈ segments, IsSegment segment) (hne : path.segments ≠ []) :
    path.read .files segments = { path with segments := segments.reverse ++ path.segments } := by
  -- each segment has the one before it in front of it
  induction segments generalizing path with
  | nil => rfl
  | cons segment segments ih =>
    rw [read, next_of_isSegment (h segment (by simp)) hne,
      ih (fun x hx => h x (List.mem_cons_of_mem _ hx)) (by simp)]
    simp

/-- The segments of the root: an empty one. -/
theorem readPath_root : readPath .files ['/'] = ([[]], false) := by
  decide

/-- The segments of a path are read from the encoded steps, each behind a slash. -/
theorem readPath_slash_joinPieces {segments : List (List Char)}
    (h : ∀ segment ∈ segments, IsSegment segment ∧ segment ≠ []) (hne : segments ≠ []) :
    readPath .files ('/' :: FilePath.joinPieces segments) = (segments, false) := by
  -- the slash in front leaves an empty first segment, which is dropped in the end
  have hsplit : splitAtEach PathRules.files.isSlash ('/' :: FilePath.joinPieces segments) =
      [] :: segments := by
    have hpieces : splitAtEach isEitherSlash (FilePath.joinPieces segments) = segments :=
      splitAtEach_joinPieces (fun segment hs c hc => ((h segment hs).1.isInert c hc).2.1) rfl hne
    have happend : splitAtEach isEitherSlash ([] ++ '/' :: FilePath.joinPieces segments) =
        [] :: splitAtEach isEitherSlash (FilePath.joinPieces segments) :=
      splitAtEach_append (by simp) rfl _
    rwa [hpieces] at happend
  have hfirst : ({} : PathSoFar).next .files segments.isEmpty [] = { segments := [[]] } := by
    rw [List.isEmpty_eq_false_iff.2 hne]
    rfl
  have hkept : segments.dropWhile List.isEmpty = segments := by
    cases segments with
    | nil => rfl
    | cons segment segments =>
      exact List.dropWhile_cons_of_neg (by simpa using (h segment (by simp)).2)
  rw [readPath, hsplit, PathSoFar.read, hfirst,
    PathSoFar.read_of_isSegment (fun segment hs => (h segment hs).1) (by simp)]
  simp [PathRules.files, hkept, hne]

/-! ## Drives -/

/-- Whether the text of a path ends in a drive, which puts a slash behind it when it is read from a
URI. -/
def endsInDrive (p : FilePath) : Bool :=
  isDrive (p.text.toList.drop (p.text.toList.length - 2))

/-- A text ends in a drive if its last two characters are a letter and a colon or a bar. -/
theorem isDrive_drop_iff {cs : List Char} :
    isDrive (cs.drop (cs.length - 2)) = true ↔
      ∃ front letter c, cs = front ++ [letter, c] ∧ letter.isAlpha = true ∧
        (c = ':' ∨ c = '|') := by
  constructor
  · intro h
    -- the last two characters and those before them
    have hcs : cs = cs.take (cs.length - 2) ++ cs.drop (cs.length - 2) :=
      (List.take_append_drop _ _).symm
    unfold isDrive at h
    split at h
    · next letter c heq =>
      rw [heq] at hcs
      exact ⟨_, letter, c, hcs, by simpa using h⟩
    · cases h
  · rintro ⟨front, letter, c, rfl, hletter, hc⟩
    have hlength : (front ++ [letter, c]).length - 2 = front.length := by simp
    rw [hlength, List.drop_left]
    simp [isDrive, hletter, hc]

/-- A character below 128 is one byte. -/
theorem utf8Bytes_of_lt {c : Char} (h : c.toNat < 0x80) : Text.utf8Bytes c = [c.toNat] := by
  rw [Text.utf8Bytes]
  exact if_pos h

/-- The last byte of any other character is no character of one byte. -/
theorem exists_utf8Bytes_concat {c : Char} (h : ¬c.toNat < 0x80) :
    ∃ front b, Text.utf8Bytes c = front ++ [b] ∧ 0x80 ≤ (Char.ofNat b).toNat := by
  have hall : ∀ n < 0x40, 0x80 ≤ (Char.ofNat (0x80 + n)).toNat := by decide
  have hlast : 0x80 ≤ (Char.ofNat (0x80 + c.toNat % 0x40)).toNat := hall _ (by omega)
  simp only [Text.utf8Bytes, if_neg h]
  split
  · exact ⟨[_], _, rfl, hlast⟩
  · split
    · exact ⟨[_, _], _, rfl, hlast⟩
    · exact ⟨[_, _, _], _, rfl, hlast⟩

/-- A character of one byte that comes last among the bytes of a text comes last in the text. -/
theorem of_map_utf8_eq_concat {cs front : List Char} {c : Char}
    (h : (Text.utf8 cs).map Char.ofNat = front ++ [c]) (hc : c.toNat < 0x80) :
    ∃ cs', cs = cs' ++ [c] ∧ (Text.utf8 cs').map Char.ofNat = front := by
  -- the last byte belongs to the last character of the text
  rcases List.eq_nil_or_concat cs with rfl | ⟨cs', d, rfl⟩
  · simp [Text.utf8] at h
  rw [List.concat_eq_append] at h ⊢
  have hconcat : Text.utf8 (cs' ++ [d]) = Text.utf8 cs' ++ Text.utf8Bytes d := by simp [Text.utf8]
  rw [hconcat, List.map_append] at h
  by_cases hd : d.toNat < 0x80
  · rw [utf8Bytes_of_lt hd] at h
    obtain ⟨hfront, hlast⟩ := List.append_inj' h rfl
    have hdc : Char.ofNat d.toNat = c := by simpa using hlast
    rw [Char.ofNat_toNat] at hdc
    exact ⟨cs', by rw [hdc], hfront⟩
  · obtain ⟨init, b, hbytes, hb⟩ := exists_utf8Bytes_concat hd
    rw [hbytes, List.map_append, ← List.append_assoc] at h
    obtain ⟨-, hlast⟩ := List.append_inj' h rfl
    obtain rfl : Char.ofNat b = c := by simpa using hlast
    omega

/-- A letter is a character of one byte. -/
theorem toNat_lt_of_isAlpha {c : Char} (h : c.isAlpha = true) : c.toNat < 0x80 := by
  have hval : c.toNat = c.val.toNat := rfl
  rcases Bool.or_eq_true_iff.1 h with hupper | hlower
  · have hle : c.val ≤ 'Z'.val := (of_decide_eq_true hupper).2
    have hle : c.val.toNat ≤ 90 := UInt32.le_iff_toNat_le.1 hle
    omega
  · have hle : c.val ≤ 'z'.val := of_decide_eq_true (Bool.and_eq_true_iff.1 hlower).2
    have hle : c.val.toNat ≤ 122 := UInt32.le_iff_toNat_le.1 hle
    omega

/-- Whether a text ends in a drive can be told from its bytes. -/
theorem isDrive_drop_utf8 (cs : List Char) :
    isDrive (((Text.utf8 cs).drop ((Text.utf8 cs).length - 2)).map Char.ofNat) =
      isDrive (cs.drop (cs.length - 2)) := by
  have hmap : ((Text.utf8 cs).drop ((Text.utf8 cs).length - 2)).map Char.ofNat =
      ((Text.utf8 cs).map Char.ofNat).drop (((Text.utf8 cs).map Char.ofNat).length - 2) := by
    rw [List.map_drop, List.length_map]
  -- a letter, a colon and a bar take one byte each, so they are seen in the bytes
  have hsmall : ∀ c : Char, c = ':' ∨ c = '|' → c.toNat < 0x80 := by
    rintro c (rfl | rfl) <;> decide
  rw [Bool.eq_iff_iff, hmap, isDrive_drop_iff, isDrive_drop_iff]
  constructor
  · rintro ⟨front, letter, c, heq, hletter, hc⟩
    rw [← List.singleton_append, ← List.append_assoc] at heq
    obtain ⟨cs', rfl, hinit⟩ := of_map_utf8_eq_concat heq (hsmall c hc)
    obtain ⟨cs'', rfl, -⟩ := of_map_utf8_eq_concat hinit (toNat_lt_of_isAlpha hletter)
    exact ⟨cs'', letter, c, by simp, hletter, hc⟩
  · rintro ⟨front, letter, c, rfl, hletter, hc⟩
    refine ⟨(Text.utf8 front).map Char.ofNat, letter, c, ?_, hletter, hc⟩
    simp [Text.utf8, utf8Bytes_of_lt (toNat_lt_of_isAlpha hletter), utf8Bytes_of_lt (hsmall c hc)]

/-! ## The path of a URI -/

/-- The path of a URI is a slash and the steps with slashes between them. -/
theorem stepsText_eq (steps : List (List Char)) :
    stepsText steps = '/' :: FilePath.joinPieces steps := by
  by_cases hne : steps = []
  · rw [hne]
    rfl
  · rw [stepsText, if_neg (by simpa using hne), flatMap_slash hne]

/-- Behind a slash comes what follows it. -/
theorem behindSlash?_slash (cs : List Char) : behindSlash? isEitherSlash ('/' :: cs) = some cs := by
  have hslash : isEitherSlash '/' = true := by decide
  have hbreak : ('/' :: cs).dropWhile isBreak = '/' :: cs :=
    List.dropWhile_cons_of_neg (by decide)
  simp [behindSlash?, hbreak, hslash]

/-- One slash in front of a path makes no difference to it. -/
theorem filePath_slash {cs : List Char} (h : behindSlash? isEitherSlash cs = none) :
    filePath ('/' :: cs) = filePath cs := by
  simp only [filePath, behindSlash?_slash, h]

/-- Behind an empty host there is nothing but the path, which begins with its slash. -/
theorem filePath_emptyHost (cs : List Char) :
    filePath ('/' :: '/' :: '/' :: cs) = pathOf (readPath .files ('/' :: cs)).1 := by
  have hname : ('/' :: cs).takeWhile (!isEitherSlash ·) = [] :=
    List.takeWhile_cons_of_neg (by decide)
  simp only [filePath, behindSlash?_slash, hname]
  rfl

/-- So a drive comes first behind one slash, where its bar becomes a colon, and not behind three. -/
example :
    toPath "file:/C|/x" = .ok ⟨"/C:/x"⟩ ∧ toPath "file:///C|/x" = .ok ⟨"/C|/x"⟩ ∧
      toPath "file:/C:\tx" = .ok ⟨"/C:/x"⟩ ∧ toPath "file:///C:\tx" = .ok ⟨"/C:x"⟩ := by
  decide +kernel

/-- The bytes of a path from the root, from its encoded steps. -/
theorem flatMap_decodeBytes_encode (steps : List (List Char)) :
    ((steps.map encode).flatMap fun segment => '/'.toNat :: decodeBytes segment) =
      Text.utf8 (steps.flatMap ('/' :: ·)) := by
  have hslash : Text.utf8Bytes '/' = ['/'.toNat] := by decide
  induction steps with
  | nil => rfl
  | cons step steps ih =>
    rw [List.map_cons, List.flatMap_cons, ih, decodeBytes_encode, List.flatMap_cons]
    simp [Text.utf8, hslash]

/-- A path from the root that ends in a drive is longer than the drive. -/
theorem lt_length_of_endsInDrive {p : FilePath} (habsolute : p.isAbsolute = true)
    (h : endsInDrive p = true) : 2 < (Text.utf8 p.text.toList).length := by
  obtain ⟨front, letter, c, heq, hletter, -⟩ := isDrive_drop_iff.1 h
  have hhead : p.text.toList.head? = some '/' := by simpa [FilePath.isAbsolute] using habsolute
  have hne : ∀ cs : List Char, cs.length ≤ (Text.utf8 cs).length := by
    intro cs
    induction cs with
    | nil => exact Nat.le_refl _
    | cons d cs ih =>
      obtain ⟨lead, tail, _, _, _, _, hbytes, -⟩ := Text.exists_utf8Bytes d
      simp only [Text.utf8, List.flatMap_cons, hbytes, List.length_append, List.length_cons] at ih ⊢
      omega
  have hlength := hne p.text.toList
  rw [heq] at hhead hlength
  cases front with
  | nil =>
    -- a slash is no letter
    obtain rfl : letter = '/' := by simpa using hhead
    cases hletter
  | cons d front =>
    rw [heq]
    simp only [List.length_append, List.length_cons, List.length_nil] at hlength
    omega

/-- A path with a slash behind it. -/
def withSlash (p : FilePath) : FilePath :=
  ⟨p.text ++ "/"⟩

/-- What comes of the bytes of a path from the root. -/
theorem pathOf_of_bytes {segments : List (List Char)} {p : FilePath}
    (habsolute : p.isAbsolute = true)
    (h : (segments.flatMap fun segment => '/'.toNat :: decodeBytes segment) =
      Text.utf8 p.text.toList) :
    pathOf segments = .ok (if endsInDrive p then withSlash p else p) := by
  -- a slash is added behind a drive, for the bytes as for the path
  have hbytes : pathBytes segments =
      Text.utf8 (if endsInDrive p then p.text.toList ++ ['/'] else p.text.toList) := by
    rw [pathBytes, h]
    simp only [isDrive_drop_utf8]
    cases hdrive : endsInDrive p with
    | true =>
      have hlength : 2 < (Text.utf8 p.text.toList).length :=
        lt_length_of_endsInDrive habsolute hdrive
      unfold endsInDrive at hdrive
      have happend : Text.utf8 (p.text.toList ++ ['/']) =
          Text.utf8 p.text.toList ++ ['/'.toNat] := by
        rw [Text.utf8, List.flatMap_append]
        rfl
      simp [hdrive, hlength, happend]
    | false =>
      unfold endsInDrive at hdrive
      simp [hdrive]
  rw [pathOf, hbytes, Text.isUtf8_utf8, Text.decodeUtf8_utf8]
  cases endsInDrive p with
  | true => simp [withSlash]
  | false => simp

/-! ## Parts of a URI -/

/-- A text without outer characters is left as it is. -/
theorem trim_eq_self {cs : List Char} (h : ∀ c ∈ cs, 0x20 < c.toNat) : trim cs = cs := by
  have hdrop : ∀ ds : List Char, (∀ c ∈ ds, 0x20 < c.toNat) →
      ds.dropWhile (fun c => decide (c.toNat ≤ 0x20)) = ds := by
    intro ds hds
    cases ds with
    | nil => rfl
    | cons d ds =>
      have hd := hds d (by simp)
      exact List.dropWhile_cons_of_neg (by simp; omega)
  have hreverse : ∀ c ∈ cs.reverse, 0x20 < c.toNat := fun c hc => h c (List.mem_reverse.1 hc)
  rw [trim, hdrop cs h, hdrop cs.reverse hreverse, List.reverse_reverse]

/-- A file URI has the scheme of files. -/
theorem scheme?_file (rest : List Char) :
    scheme? ("file:".toList ++ rest) = some ("file", rest) := by
  have hwritten : ("file:".toList ++ rest).takeWhile (· ≠ ':') = "file".toList := by
    simp [List.takeWhile]
  rw [scheme?, hwritten]
  rfl

/-- The characters of the path in a URI mean nothing but themselves, or are slashes. -/
theorem of_mem_stepsText {steps : List (List Char)} (h : ∀ step ∈ steps, ∀ c ∈ step, IsInert c)
    {c : Char} (hc : c ∈ stepsText steps) : endsPath c = false ∧ 0x20 < c.toNat := by
  have hslash : endsPath '/' = false ∧ 0x20 < '/'.toNat := by decide
  unfold stepsText at hc
  split at hc
  · rwa [List.mem_singleton.1 hc]
  · obtain ⟨step, hstep, hc⟩ := List.mem_flatMap.1 hc
    rcases List.mem_cons.1 hc with rfl | hc
    · exact hslash
    · exact (h step hstep c hc).2.2

/-- A URI of encoded steps is read as their path. -/
theorem toPath_of_steps {uri : String} {steps : List (List Char)}
    (huri : uri.toList = "file://".toList ++ stepsText steps)
    (h : ∀ step ∈ steps, ∀ c ∈ step, IsInert c) :
    toPath uri = pathOf (readPath .files ('/' :: FilePath.joinPieces steps)).1 := by
  -- nothing in the URI ends the path, and nothing is trimmed
  have hplain : ∀ c ∈ '/' :: '/' :: stepsText steps, endsPath c = false ∧ 0x20 < c.toNat := by
    intro c hc
    rcases List.mem_cons.1 hc with rfl | hc
    · decide
    rcases List.mem_cons.1 hc with rfl | hc
    · decide
    · exact of_mem_stepsText h hc
  have hsplit : uri.toList = "file:".toList ++ '/' :: '/' :: stepsText steps := huri
  have htrim : trim uri.toList = uri.toList := by
    apply trim_eq_self
    intro c hc
    rw [hsplit] at hc
    rcases List.mem_append.1 hc with hc | hc
    · have hscheme : ∀ c ∈ "file:".toList, 0x20 < c.toNat := by simp
      exact hscheme c hc
    · exact (hplain c hc).2
  have hhierarchy : ('/' :: '/' :: stepsText steps).takeWhile (!endsPath ·) =
      '/' :: '/' :: stepsText steps :=
    List.takeWhile_eq_self_iff.2 fun c hc => by simp [(hplain c hc).1]
  rw [toPath, htrim, hsplit, scheme?_file]
  simp only [hhierarchy, if_true]
  rw [stepsText_eq, filePath_emptyHost]

/-! ## Paths -/

/-- The encoded steps of a normal path that goes nowhere up are segments that stand for
themselves. -/
theorem isSegment_of_mem_encodedSteps {p : FilePath} (hp : p.IsNormal)
    (hup : .up ∉ p.route.steps) {segment : List Char} (h : segment ∈ encodedSteps p) :
    IsSegment segment ∧ segment ≠ [] := by
  refine ⟨?_, (of_mem_encodedSteps hp h).2⟩
  obtain ⟨piece, hpiece, rfl⟩ := List.mem_map.1 h
  obtain ⟨step, hstep, rfl⟩ := List.mem_map.1 hpiece
  have hplain : FilePath.Step.ofPiece? step.text.toList = some step := (hp.isPlain hstep).2
  apply isSegment_encode
  -- the steps of a normal path are read back as themselves, so they are no dots
  · intro hdot
    rw [hdot] at hplain
    cases hplain
  · intro hdots
    rw [hdots] at hplain
    obtain rfl : FilePath.Step.up = step := Option.some.inj hplain
    exact hup hstep

/-- The text of a normal path from the root is its steps, each behind a slash. -/
theorem toList_text_of_isNormal {p : FilePath} (hp : p.IsNormal) (habsolute : p.isAbsolute = true) :
    p.text.toList = stepsText (p.route.steps.map fun step => step.text.toList) := by
  have hroute : p.route.toFilePath = p := by
    have hnormal : p.route.normalize.toFilePath = p := hp
    rwa [← FilePath.route_normalize, hp] at hnormal
  have hrooted : p.route.rooted = true := habsolute
  have htext := congrArg (fun q : FilePath => q.text.toList) hroute
  simp only [FilePath.Route.toFilePath, hrooted, if_true, String.toList_ofList] at htext
  rw [stepsText_eq, htext]

/-- A normal path from the root that goes nowhere up is read from its URI, with a slash behind it
if it ends in a drive. -/
theorem toPath_ofPath {p : FilePath} (hp : p.IsNormal) (habsolute : p.isAbsolute = true)
    (hup : .up ∉ p.route.steps) :
    toPath (ofPath p) = .ok (if endsInDrive p then withSlash p else p) := by
  have hsegments : ∀ segment ∈ encodedSteps p, IsSegment segment ∧ segment ≠ [] :=
    fun segment => isSegment_of_mem_encodedSteps hp hup
  have htext := toList_text_of_isNormal hp habsolute
  rw [toPath_of_steps (toList_ofPath_of_isAbsolute habsolute)
    fun segment hsegment => (hsegments segment hsegment).1.isInert]
  by_cases hne : encodedSteps p = []
  · -- the root is one empty segment
    have hsteps : (p.route.steps.map fun step => step.text.toList) = [] := by
      simpa [encodedSteps] using hne
    rw [hne, FilePath.joinPieces, readPath_root]
    apply pathOf_of_bytes habsolute
    rw [htext, hsteps]
    rfl
  · have hsteps : (p.route.steps.map fun step => step.text.toList) ≠ [] := by
      simpa [encodedSteps] using hne
    rw [readPath_slash_joinPieces hsegments hne]
    apply pathOf_of_bytes habsolute
    rw [htext, stepsText, if_neg (by simpa using hsteps), encodedSteps, flatMap_decodeBytes_encode]

/-! ## Where URIs lead -/

/-- The last segment of a path leaves at least one. -/
theorem PathSoFar.next_segments_ne_nil (rules : PathRules) (path : PathSoFar)
    (written : List Char) : (path.next rules true written).segments ≠ [] := by
  unfold next
  split
  · simp
  · simp only [if_true]
    split
    · simp
    · split
      · simp
      · unfold push
        split <;> simp

/-- A path that has a segment to be read is left with one. -/
theorem PathSoFar.read_segments_ne_nil (rules : PathRules) (path : PathSoFar)
    {written : List (List Char)} (h : written ≠ []) : (path.read rules written).segments ≠ [] := by
  -- the last segment decides, whatever the others leave
  induction written generalizing path with
  | nil => exact absurd rfl h
  | cons segment rest ih =>
    cases rest with
    | nil => exact next_segments_ne_nil rules path segment
    | cons other rest => exact ih _ (by simp)

/-- Every text has a segment. -/
theorem splitAtEach_ne_nil (isSeparator : Char → Bool) (cs : List Char) :
    splitAtEach isSeparator cs ≠ [] := by
  cases cs with
  | nil => simp [splitAtEach]
  | cons c cs =>
    rw [splitAtEach]
    split
    · simp
    · split <;> simp

/-- A path has at least one segment. -/
theorem readPath_ne_nil (rules : PathRules) (cs : List Char) : (readPath rules cs).1 ≠ [] := by
  have hread : (PathSoFar.read rules {} (splitAtEach rules.isSlash cs)).segments ≠ [] :=
    PathSoFar.read_segments_ne_nil rules {} (splitAtEach_ne_nil _ _)
  simp only [readPath]
  split
  · simpa using hread
  · split
    · simp
    · next hkept => simpa using hkept

/-- Whether a path that is read starts at the root, if one is read. -/
def IsRooted (result : Except Fault FilePath) : Prop :=
  ∀ q, result = .ok q → q.isAbsolute = true

/-- Where no path is read, there is none that could start elsewhere. -/
theorem isRooted_error (fault : Fault) : IsRooted (.error fault) := by
  intro q h
  cases h

/-- A path of at least one segment starts with a slash. -/
theorem isRooted_pathOf {segments : List (List Char)} (h : segments ≠ []) :
    IsRooted (pathOf segments) := by
  intro q hq
  -- there is a first segment, and a slash stands before it
  obtain ⟨rest, hbytes⟩ : ∃ rest, pathBytes segments = Text.utf8Bytes '/' ++ rest := by
    cases segments with
    | nil => exact absurd rfl h
    | cons segment segments =>
      rw [pathBytes]
      split
      · exact ⟨_, rfl⟩
      · exact ⟨_, rfl⟩
  simp only [pathOf, hbytes, Text.decodeUtf8_utf8Bytes] at hq
  split at hq
  · obtain rfl := Except.ok.inj hq
    simp [FilePath.isAbsolute]
  · cases hq

/-- Every path that is read from segments starts at the root. -/
theorem isRooted_pathOf_readPath (rules : PathRules) (cs : List Char) :
    IsRooted (pathOf (readPath rules cs).1) :=
  isRooted_pathOf (readPath_ne_nil rules cs)

/-- A path on a host starts at the root, if the host is this machine. -/
theorem isRooted_pathOn (host : Host) (rules : PathRules) (cs : List Char) :
    IsRooted (pathOn host (readPath rules cs).1) := by
  rw [pathOn]
  split
  · exact isRooted_pathOf_readPath rules cs
  · exact isRooted_error _

/-- What is read behind the scheme of files starts at the root. -/
theorem isRooted_filePath (cs : List Char) : IsRooted (filePath cs) := by
  -- no slash, one slash, or a host behind two, which may be a drive
  unfold filePath
  split
  · exact isRooted_pathOf_readPath _ _
  · split
    · exact isRooted_pathOf_readPath _ _
    · dsimp only
      split
      · exact isRooted_pathOf_readPath _ _
      · split
        · exact isRooted_error _
        · split
          · exact isRooted_pathOf_readPath _ _
          · exact isRooted_error _
        · exact isRooted_pathOf_readPath _ _

/-- What is read behind a scheme with a host starts at the root. -/
theorem isRooted_networkPath (cs : List Char) : IsRooted (networkPath cs) := by
  unfold networkPath
  dsimp only
  split
  · exact isRooted_error _
  · exact isRooted_pathOn _ _ _

/-- What is read behind any other scheme starts at the root. -/
theorem isRooted_otherPath (isLast : Bool) (cs : List Char) : IsRooted (otherPath isLast cs) := by
  unfold otherPath
  dsimp only
  split
  · split
    · exact isRooted_error _
    · split
      · exact isRooted_error _
      · exact isRooted_pathOn _ _ _
      · exact isRooted_pathOn _ _ _
  · exact isRooted_pathOf_readPath _ _
  · exact isRooted_error _

/-- Whatever path comes of a URI, it starts at the root. -/
theorem isAbsolute_of_toPath {uri : String} {q : FilePath} (h : toPath uri = .ok q) :
    q.isAbsolute = true := by
  have hrooted : IsRooted (toPath uri) := by
    -- without a scheme nothing is read
    unfold toPath
    split
    · exact isRooted_error _
    · dsimp only
      split
      · exact isRooted_filePath _
      · split
        · exact isRooted_networkPath _
        · exact isRooted_otherPath _ _
  exact hrooted q h

/-! ## Slashes behind paths -/

/-- A slash behind a path makes no difference to its route. -/
theorem route_withSlash {p : FilePath} (habsolute : p.isAbsolute = true) :
    (withSlash p).route = p.route := by
  have hhead : p.text.toList.head? = some '/' := by simpa [FilePath.isAbsolute] using habsolute
  have hrooted : (withSlash p).isAbsolute = p.isAbsolute := by
    simp [FilePath.isAbsolute, withSlash, List.head?_append, hhead]
  -- the slash adds one empty piece, which is no step
  have hpieces : FilePath.pieces (withSlash p).text.toList =
      FilePath.pieces p.text.toList ++ [[]] := by
    rw [withSlash, String.toList_append]
    exact FilePath.pieces_append _ []
  obtain ⟨first, more, hcons⟩ := FilePath.exists_pieces_eq_cons p.text.toList
  have hsteps : (FilePath.pieces p.text.toList ++ [[]]).filterMap FilePath.Step.ofPiece? =
      (FilePath.pieces p.text.toList).filterMap FilePath.Step.ofPiece? := by
    rw [List.filterMap_append]
    exact List.append_nil _
  have hstart : (FilePath.pieces p.text.toList ++ [[]]).head? =
      (FilePath.pieces p.text.toList).head? := by
    rw [hcons]
    rfl
  simp only [FilePath.route, hrooted, hpieces, hsteps, hstart]

/-- A slash behind a path makes no difference to where the path leads. -/
theorem normalize_withSlash {p : FilePath} (habsolute : p.isAbsolute = true) :
    (withSlash p).normalize = p.normalize := by
  rw [FilePath.normalize, route_withSlash habsolute, FilePath.normalize]

end SchemaAtlas.FileUri
