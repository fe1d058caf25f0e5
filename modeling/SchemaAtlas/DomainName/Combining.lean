import SchemaAtlas.Text.Packed

/-!
# Combining characters

The properties of Unicode 17 that say how characters combine. The tables cover the characters that
are kept in domain names.
-/

namespace SchemaAtlas.DomainName

/-- The runs of combining classes. -/
def classTable : List String :=
  ["YqavIwbIyeImbIybIifImcHueImcHulImfbeImkIwdImdIwdImdIweImbIwbIycImbIwbIzcJabIzcJabIzoIwKoafIwKf",
   "abImeIwbImdIwbIobImgIwgImcIwbImcIwbIobIubIwbkblbmbnbobpbqbrbsctbubvbwbabxbabybzbabIwbImbajsCma",
   "iIwbBebBfbBgBwabBbbBcbBdbBebBfbBgbBhbBicIwcImfIwbImcIwbImqabBjDxaiIwbaeIwbImbIwcacIwbabImcIwbI",
   "mBjabBkBeabIwbImcIwbImcIwdImbIwcImbIwbImdIwbImbIwbImbIwbImbIwbImeIwGcahIwbImbIwjabImyaeIwbajIw",
   "badIwbahIwBpafImCfacIwdImeIwBqafIwfImpIwbImcIwbImcIwbImdIwdImbBbbBcbBddIwbImcIwcImfIwCiabhqabj",
   "dabIwbImcIwDzabhqabjBwadIwChachpaejEdabhqadjEeabhqaijEqadjEeabhqaijbDgcDnDwabhqaijDyacjqabjEua",
   "fjEbacDzfjjaeEdEeacEobjnaeEsCyacImBbabImbabImbabIiCdabEzcFagFceFacacFacIwbjbacIwCkabImEiabhbac",
   "jDeabImBBradIwBKmaljvabjGbabjkadIwHtabIuFnabIobIwfImIhabIwbImCtabjuakIwbImBwafIwgImcIwbImbacIm",
   "cIwcImfIwbImsIwdImgIwbImeIwvJaCaabhpabjBmabIwbImhIwCcacjCgabhlakjChaehFtadIwbabbfImcIweImbIwba",
   "hbeabImgabIwdacIwHqacIwbImhIwbImcIwbJabIgbImbHuBlIwbIycIubImbIkbIwbIzbImbIwcImBBracIwcbeIwdbcI",
   "weabIwdacbbIwbImbIwcbeImuIwENjaeIwFkabjDsaBgIwViabIkbIubIybIocIqEbaeiBSQcabIweakIwBgacIwDcacIw",
   "KqabjBlaejFsabjBbasIwCfadImBlamjDgabhmabjJfabIwbacIwbImcacIwfacIwbabIwCaaljJcadjBDZqaFsBaXyahI",
   "whImxIwBKqaFbImDsabImFtakIwCMnabImbabIwBoabIwbbfImbjGjabIwfImVxamIwCfafIwMfacIwCzacImbadImCsac",
   "ImdIwbImbIweImBxabIwbImbIwbImHkabjBpabjoabjCfabjbhCradIwBwadjCjabhCyabjjabhEcabjbhGwabhgjCxach",
   "qadjwaBaIwDaadjEjabjdabhxabIwDvabjbhJrabjbhEwabjEoabjbhElafjKfabjbhJyacjeabhGaabjDfabjsajjCvab",
   "jQfabjJyabhbacjDdabjQjacjYZcabjDSaafbChahIwBUnacgBDAyabbHWoacIidbdabIsnIiiImcafIwcImBeaeIwFsad",
   "IwFFfaJwIwBwahIwOlasIwBsaeIwToacIybImbIwJuabIwbImJjabIwcabIwhacIwfajIwRyaDeImBiagIwbhBTIAna"]

/-- The runs of combining classes. -/
def classRuns : List (Nat × Nat) :=
  Text.Packed.pairs (Text.Packed.numbers classTable)

/-- The combining class of a character, by which marks behind a letter are sorted; zero for those
that stay where they are. -/
def combiningClass (c : Char) : Nat :=
  Text.Packed.valueOf classRuns c

/-- Whether a character is a sign that takes the vowel from a letter and may join it to the next. -/
def isVirama (c : Char) : Bool :=
  combiningClass c == 9

/-- The runs of marks and other characters. -/
def markTable : List String :=
  ["YqaEjbKoaibKcaBtbbabbbacbbacbbajbCmalbBwavbqabbDxaibbagbcacbbaebBjabbBeaBdbDlalbCgajbjabbyaebb",
   "ajbbadbbahbBpafbCfajbBqaCgbCcadbbasbbapbcacbBdaebCdabbbaqbjajbcaebyahbCdaBgbuacbdabblaebCdabbb",
   "asbsaebualbCdabbbaBhbdaebBcabbChasbhapbBaafbCdabbbaBabkaebBbadbCeabbbaBebgaebnarbCdacbbaqbjabb",
   "kaebBbaebCraBcbmacbCjabbcalbiaibDuabbcajblaibCuacbBbabbbabbbabbeacbBxaubbacbfaBxbiabbDwaubxaeb",
   "eadbbadbcahbdaebnambbabbkaebBBbadbBKkanbtadbBdaobsaobCcaBebjadbGjacbBiabbEoaBgbIhahbCdaBrbBwaD",
   "hbBvarbBmajbmadbBeanbCeawbBoaxbFtadbbavbeabbgabbcadbHqaCnbBBraCabENjaebFkabbDsaBgbViagbEbaebBS",
   "QcaebbakbBgacbDcacbKmabbdabbeabbxafbeaebDcacbByaBabsasbnabbBmaibzaybBhaebBvaobBkabbCpaxbdabbia",
   "ebBradbByabbbadbcacbfacbbabbBpafbfambIsaibbaebBDZqaFsbXyaBlbBKqaFbbDsabbFtakbCMbapbBoaibGjagbV",
   "xambCfafbMfacbCzagbCsalbBxaebEsadbCbapbBpabbcacbkaebBtalbhaobBwadbBkapbpacbBsabbmadbBwaobiaebb",
   "acbDoambgabbcaClbDrarbqafbCcacbbasbhagbfaBebCeazbbabboaBfbCbasbxabbDdaubJbasbBbaBkbBwarbEcanbD",
   "xatbJsapbJlapbbabbbacbFlaqbdaBcbbakbBoahbbaebiajbbalbBuaqbHqaDsbEharbDeaEgbBxavbbajbCgaobNjaeb",
   "jacbbabbBwapbxaDibHUmabbgazbQYoasbDSaafbChahbBOiabbbaCobDdaobBDAxacbGYzaDcbUnafbdawbcahbBeaebF",
   "sadbCYdaCdbeaBybiabboabbwaBRhbJwaJwbBwahbOlasbBsaebToaebJuacbJjabbcabbhacbfajbRyaDebBiahbBTIAn",
   "a"]

/-- The runs of marks and other characters. -/
def markRuns : List (Nat × Nat) :=
  Text.Packed.pairs (Text.Packed.numbers markTable)

/-- Whether a character is a mark, which belongs to the character before it. -/
def isMark (c : Char) : Bool :=
  Text.Packed.valueOf markRuns c == 1

/-- A character that stands for two others. -/
structure Composite where
  whole : Char
  first : Char
  second : Char

/-- Reads composites from numbers: the distance to the one before, and the two parts. -/
def Composite.ofNumbers (before : Nat) : List Nat → List Composite
  | distance :: first :: second :: rest =>
    ⟨Char.ofNat (before + distance), Char.ofNat first, Char.ofNat second⟩ ::
      ofNumbers (before + distance) rest
  | _ => []

/-- The composites. -/
def compositeTable : List String :=
  ["IqDtBDobDtBDpbDtBDqbDtBDrbDtBDwbDtBDycDvBFbbDxBDobDxBDpbDxBDqbDxBDwbEbBDobEbBDpbEbBDqbEbBDwcEg",
   "BDrbEhBDobEhBDpbEhBDqbEhBDrbEhBDwdEnBDobEnBDpbEnBDqbEnBDwbErBDpcErBDwcDtBDscDtBDucDtBFccDvBDpc",
   "DvBDqcDvBDvcDvBEacDwBEaeDxBDscDxBDucDxBDvcDxBFccDxBEacDzBDqcDzBDucDzBDvcDzBFbcEaBDqeEbBDrcEbBD",
   "scEbBDucEbBFcgEcBDqcEdBFbdEeBDpcEeBFbcEeBEagEgBDpcEgBFbcEgBEafEhBDscEhBDucEhBDzeEkBDpcEkBFbcEk",
   "BEacElBDpcElBDqcElBFbcElBEacEmBFbcEmBEaeEnBDrcEnBDscEnBDucEnBDycEnBDzcEnBFccEpBDqcErBDqdEsBDpc",
   "EsBDvcEsBEaBjEhBEppEnBEpBeDtBEacEbBEacEhBEacEnBEacJsBDscJsBDpcJsBEacJsBDodIuBDscVfBDscIwBDseDz",
   "BEacEdBEacEhBFccSxBDscZiBEabEcBEafDzBDpeEgBDocIvBDpcIwBDpcJoBDpcDtBEdcDtBEfcDxBEdcDxBEfcEbBEdc",
   "EbBEfcEhBEdcEhBEfcEkBEdcEkBEfcEnBEdcEnBEfcElBFacEmBFaeEaBEaiDtBDvcDxBFbcJmBDscJlBDscEhBDvcVnBD",
   "scErBDsNlBLiBDpBcBKjBDpbBKnBDpbBKpBDpbBKrBDpbBLjBDpBaBKrBDwbBLdBDwbBKxBDpbBLdBDpbBLhBDpEdBPoBD",
   "uxBPlBDobBPlBDwcBPjBDpeBQsBDwfBPqBDpbBPoBDobBPzBDuzBRxBEdCxBPmBDupBPgBDucBPgBDweBPlBDueBVtBDwc",
   "BPmBDwcBPnBDweBPoBDscBPoBDwcBPuBDweBWjBDwcBQjBDwcBPzBDscBPzBDwcBPzBDzcBQdBDweBQhBDwLlCIpCKhbCI",
   "pCKibCJwCKibCIpCKjbCJyCKiFyCPhCKicCOnCKirCPeCKiXaDMeDMyiDMmDMydDMpDMyFvDShDRybDShDSxOqEHbEHqdE",
   "HbEGsbEHbEHrCuEJyEMpCcELyELqbELzELqbELyEMpEuEQwERmEqEVnEWjhEVuEWjbEVuEWkcEVuEVqbEVyEWjExFAsFAk",
   "bFAtFAkbFAsFBjFmFGjFFucFGjFFzbFGmFFubFGjFGpWmGCzGDiEDcKGbKHxcKGdKHxcKGfKHxcKGhKHxcKGjKHxeKGnKH",
   "xBpKIcKHxcKIeKHxdKIgKHxbKIhKHxcKIkKHxBBaDtBEzcDuBDvcDuBExcDuBFlcIxBDpcDwBDvcDwBExcDwBFlcDwBFbc",
   "DwBFhcKpBDocKpBDpcDxBFhcDxBFkcVhBDucDyBDvcDzBDscEaBDvcEaBExcEaBDwcEaBFbcEaBFicEbBFkcJfBDpcEdBD",
   "pcEdBExcEdBFlcEeBExcLLnBDscEeBFlcEeBFhcEfBDpcEfBDvcEfBExcEgBDvcEgBExcEgBFlcEgBFhcJlBDpcJlBDwcM",
   "vBDocMvBDpcEiBDpcEiBDvcEkBDvcEkBExcLMxBDscEkBFlcElBDvcElBExcNjBDvcNpBDvcLNfBDvcEmBDvcEmBExcEmB",
   "FlcEmBFhcEnBEycEnBFkcEnBFhcNxBDpcNzBDwcEoBDrcEoBExcEpBDocEpBDpcEpBDwcEpBDvcEpBExcEqBDvcEqBDwcE",
   "rBDvcEsBDqcEsBExcEsBFlbEaBFlbEmBDwbEpBDybErBDyiDtBExcDtBDxcIsBDpcIsBDocIsBDxcIsBDrcLPpBDqcJzBD",
   "pcJzBDocJzBDxcJzBDrcLPpBDucDxBExcDxBDxcDxBDrcJaBDpcJaBDocJaBDxcJaBDrcLQnBDqcEbBDxcEbBExcEhBExc",
   "EhBDxcJkBDpcJkBDocJkBDxcJkBDrcLRhBDqcQbBDpcQbBDocQbBDxcQbBDrcQbBExcEnBExcEnBDxcQqBDpcQqBDocQqB",
   "DxcQqBDrcQqBExcErBDocErBExcErBDxcErBDrhBKjBEhbBKjBEibLTgBDobLThBDobLTgBDpbLThBDpbLTgBGcbLThBGc",
   "jBKnBEhbBKnBEibLTwBDobLTxBDobLTwBDpbLTxBDplBKpBEhbBKpBEibLUmBDobLUnBDobLUmBDpbLUnBDpbLUmBGcbLU",
   "nBGcjBKrBEhbBKrBEibLVcBDobLVdBDobLVcBDpbLVdBDpbLVcBGcbLVdBGcjBKxBEhbBKxBEibLVsBDobLVtBDobLVsBD",
   "pbLVtBDplBLdBEhbBLdBEibLWiBDobLWjBDobLWiBDpbLWjBDpbLWiBGcbLWjBGcjBLhBEhbBLhBEibLWyBDobLWzBDobL",
   "WyBDpbLWzBDpbLWyBGcbLWzBGcjBKjBDocBKnBDocBKpBDocBKrBDocBKxBDocBLdBDocBLhBDoCaBKjBDubBKjBDsfBKj",
   "BGcqBKpBGckBKrBDubBKrBDsbBLiBDoeBKrBGcbBLiBGcjBLdBDubBLdBDsbBLjBDocBKzBEhbBKzBEibBLdBGcbBLjBGc",
   "pBLhBGcQeMSmBFsbMSoBFstMSqBFsBfMUyBFsbMVcBFsbMVaBFsCbMWxBFsfMXcBFsdMXfBFsyMYdBFscMYfBFsBbMZcBF",
   "sdMZjBFsdMZlBFscMZoBFsxCjBFscNAnBFslMZtBFsbCiBFsbCkBFsbNAqBFsbNArBFsdNBeBFsbNBfBFsdNBiBFsbNBjB",
   "FshNBmBFsbNBnBFsdNBuBFsbNBvBFsdNByBFsbNBzBFsBjNDaBFsbNDgBFsbNDhBFsbNDjBFsBxNBoBFsbNBpBFsbNCjBF",
   "sbNCkBFshNDqBFsbNDrBFsbNDsBFsbNDtBFsFBrSHnSKncSHpSKncSHrSKncSHtSKncSHvSKncSHxSKncSHzSKncSIbSKn",
   "cSIdSKncSIfSKncSIhSKncSIjSKndSImSKncSIoSKncSIqSKnhSIxSKnbSIxSKocSJaSKnbSJaSKocSJdSKnbSJdSKocSJ",
   "gSKnbSJgSKocSJjSKnbSJjSKoxSHiSKnkSKrSKnoSLfSKncSLhSKncSLjSKncSLlSKncSLnSKncSLpSKncSLrSKncSLtSK",
   "ncSLvSKncSLxSKncSLzSKncSMbSKndSMeSKncSMgSKncSMiSKnhSMpSKnbSMpSKocSMsSKnbSMsSKocSMvSKnbSMvSKocS",
   "MySKnbSMySKocSNbSKnbSNbSKoxSLaSKndSNvSKnbSNwSKnbSNxSKnbSNySKneSOjSKnDCPfDVDyBDvBbDVEgBDvEBmDZG",
   "bDZHicDZGdDZHipDZGnDZHiFbDZLxDZLnbDZLyDZLnUuEAGlEAGcbEAGlEAHbCdEAIsEALlcEAIuEAKxjEAJbEALedEAJg",
   "EALlCaEALeEALecEALeEAKubEALeEALlJjEAUrEAUsbEAUrEAUicEAUrEAUvJsEBEmEBEdbEBEnEBEdBIjECMvECMqBBGb",
   "FDSwFDSwbFDSwFDThbFDSwFDSxbFDThFDSxbFDSwFDSybFDSzFDSxbFDTaFDSxbFDSzFDSyEQqFIJvFIJvbFIJrFIJvbFI",
   "JxFIJv"]

/-- The composites, but for the syllables of Hangul. -/
def composites : List Composite :=
  Composite.ofNumbers 0 (Text.Packed.numbers compositeTable)

end SchemaAtlas.DomainName
