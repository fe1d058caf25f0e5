import SchemaAtlas.Text.Packed

/-!
# The direction of labels

A domain name with characters that are written from right to left must not look like another one.
So each of its labels runs in the direction of its first letter to its end. The table covers the
characters of Unicode 17 that are kept in domain names.
-/

namespace SchemaAtlas.DomainName

/-- What a character says about the direction of a text. -/
inductive Direction where
  | leftToRight
  | rightToLeft
  | number
  /-- A digit that belongs to letters from right to left. -/
  | arabicNumber
  | neutral
  /-- A mark, which goes with what it stands on. -/
  | mark
deriving DecidableEq, Repr

/-- The runs of directions. -/
def directionTable : List String :=
  ["DreyabeRhacehaoecaBcebareEjfeaceExaceFjaifJvaheBtfbbbfbbcfbbcfbbjfCcbcebbcebbbebbcelfBwbvfkdbe",
   "cddbbfDxbifbegfcbcfbeefcbkcxbbfBebBdfDlblfCgbjfcbeedbbfybefbbjfbbdfbbhfBpbffCfbjfBqbCffCdabfba",
   "bfeaifeabfdapfcacfBdabfCgabfeagfgabfuaefmacehabecaffCfacfdaBbfuacfdabflacfCfabfeaifeadfsaeflai",
   "ebaifCgabfcabfbagfgakflaefBcabfCjabfmadfBjanebfdabfCdabfbadffasfkaefsahecabfCgabfpajfnaefBaacf",
   "CfacfeaffhabfuaefBbabfCuaffdagfDlabfcalfbehaifDuabfcajflaifCuacfBbabfbabfbabfeeBzaofbaffbacffa",
   "BxfiabfDyaefbagfbacfcacfzacfeadfqaefnabfcacfgabfpabfBBbadfBwaqeDsabeZqafeEkadfBdacfBeaofsaofCd",
   "ahfiabfcalfhabebadfqaBgeEnacfBiabfEoadfeacfjabfgahfgeFwaBiexacfcadfCeabfbajfbabfcaifganfBwaDgf",
   "BwabfbaffbabffabfBoajfmacfBgaefcacfbadfCeabfbacfdabfbadfCgaifcaffFtadfbanfbahfeabfgabfdacfHqaC",
   "nfUdaHoeCafCweCiaQmeCraBaebaBEkebaNbeJwaBFkeGzahedaefgaheExabfDsaBgfTxedazejaefcabegaeecaeeDka",
   "efdabeDmabeHoaBweKNwaCmeBGUiaCmeMfadeDraefbekfdeBdacfDcacfoaBjeDxabeErabfdabfeabfzacfbaeeefiai",
   "eCaameCqakfsasfnabfBmaifzalfBuadfBwabfcaefcacfBnabfCpagfcacfcalfdabfiabfBvabfBzabfbadfcacffacf",
   "babfBqacfialfEbaDieBlabfcabfeadfBDZqaFsfrbXheBlfBuePhbJxabeCkaCzedaCmeBtaFbfDsabfBfcEoakfBSiaL",
   "bbbeIrbpfBobifGjbgfDabheSqbmfBadBfbffbeJhbBgdBrbcfBjbBqegfCsblfBxbefEsbbabfCcapflauekabfcacfka",
   "dfBxaefcacfhaofBwadfBkaffbajfCjabfmacfCaajfkaefcabfDradfcabfbacfgabfcaClfDrabfdanfqacfCfacfdab",
   "fBlaBafChahfmabfbabfbabfoaBffCeaifcadfbabfxabfDgagfbabfeacfbacfJeagfeacfbacfBbaBkfBzaifcabfbac",
   "fBfaBgeBrabfbabfcagfbabfDxabfbabfcaefbajfJvajfbacfJwacfbabfeabfFoaifeabfBgagfcacfBoagfcaefiajf",
   "bagfcadfBuanfbacfHqabfbadfbabfHtaofDgaxfbahfbacfbaCxfBxavfbajfCmadfcabfbabfNjacflacfCaaifcabfb",
   "abfxaDifBlaBqeHRlabfgazfQYoamfdadfDSaaffChahfBOiabfClaefDbabebamfBDAzacfFVlaBDoeDcfUpadfraifca",
   "hfBeaefChaDledfEteCmaDseCNgaCdfeaByfiabfoabfwaBRhfJwaJwfBwahfOlasfBsaefpaRxeBcaefJuacfJjabfcab",
   "fhacffajfJyaIabDefBibhfCDpbXkeBdadeCjaCfeEsaFEeeBSZKya"]

/-- The runs of directions. -/
def directionRuns : List (Nat × Nat) :=
  Text.Packed.pairs (Text.Packed.numbers directionTable)

/-- The direction of a character. -/
def direction (c : Char) : Direction :=
  if c.toNat < 0x80 then
    if c.isAlpha then .leftToRight else if c.isDigit then .number else .neutral
  else
    match Text.Packed.valueOf directionRuns c with
    | 0 => .leftToRight
    | 1 => .rightToLeft
    | 2 => .number
    | 3 => .arabicNumber
    | 4 => .neutral
    | _ => .mark

/-- Whether a character makes a domain name one in which directions matter. -/
def isRightToLeft (c : Char) : Bool :=
  direction c == .rightToLeft || direction c == .arabicNumber

/-- Whether a label keeps to one direction: it starts with a letter, holds no letter of the other
direction nor digits of another sort, and ends with a letter or digit and its marks. -/
def keepsDirection (label : List Char) : Bool :=
  let directions := label.map direction
  let last? := (directions.reverse.dropWhile (· == .mark)).head?
  match directions with
  | [] => true
  | .leftToRight :: _ =>
    directions.all (fun d => d != .rightToLeft && d != .arabicNumber) &&
      last?.any fun d => d == .leftToRight || d == .number
  | .rightToLeft :: _ =>
    directions.all (· != .leftToRight) &&
      !(directions.contains .number && directions.contains .arabicNumber) &&
      last?.any fun d => d == .rightToLeft || d == .number || d == .arabicNumber
  | _ => false

end SchemaAtlas.DomainName
