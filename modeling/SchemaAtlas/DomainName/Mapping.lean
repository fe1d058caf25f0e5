import SchemaAtlas.Text.Packed

/-!
# The characters of domain names

What becomes of each character of Unicode 17 in a domain name: it is kept, dropped, replaced by its
plain form, or refused. Letters of ASCII become small letters, and its other characters are kept.
-/

namespace SchemaAtlas.DomainName

/-- Consecutive code points to which the same happens. -/
inductive Stretch where
  | kept (length : Nat)
  | refused (length : Nat)
  | dropped (length : Nat)
  /-- Every other code point, from the first on, is replaced by its successor, which is kept. -/
  | alternating (length : Nat)
  /-- Replaced by consecutive code points. -/
  | shifted (length first : Nat)
  /-- One code point, replaced by others. -/
  | spelled (form : List Nat)

namespace Stretch

/-- The number of code points in a stretch. -/
def length : Stretch → Nat
  | kept n | refused n | dropped n | alternating n | shifted n _ => n
  | spelled _ => 1

/-- What becomes of the code point `n` that stands at a place of a stretch. -/
def form? (n place : Nat) : Stretch → Option (List Nat)
  | kept _ => some [n]
  | refused _ => none
  | dropped _ => some []
  | alternating _ => some [if place % 2 = 0 then n + 1 else n]
  | shifted _ first => some [first + place]
  | spelled form => some form

/-- Reads stretches from numbers. The first number of each gives the sort of the stretch and its
length, or the length of the form; it is followed by the first code point or the whole form. -/
def ofNumbers : List Nat → List Stretch
  | [] => []
  | head :: rest =>
    let n := head / 6
    match head % 6 with
    | 0 => kept n :: ofNumbers rest
    | 1 => refused n :: ofNumbers rest
    | 2 => dropped n :: ofNumbers rest
    | 3 => alternating n :: ofNumbers rest
    | 4 => shifted n (rest.headD 0) :: ofNumbers (rest.drop 1)
    | _ => spelled (rest.take n) :: ofNumbers (rest.drop n)
termination_by numbers => numbers.length

end Stretch

/-- The stretches of the code points behind ASCII. -/
def mappingTable : List String :=
  ["HlkBgBqrBgBDwgkDtmigrBgBDsmqByrBgBDpkBKumrBgBFbkBxkEhgxBxMFsCaxBxMFsByxBzMFsCagFmIqgBuJoHqLfrE",
   "bBDvgrEbEcrEbEcBbgBnrEeHbrEeHbBzrBAyEgKtkJvBnkElgkWxBbkWypqXapgkSjkXdkXfpkXkkXngkXtkXspmkXzkYc",
   "gkYfBnkYqpkYtmpkYypqZaBbkZipmpBkrDwOsrDwOsrDwOsrEeEcrEeEcrEeEcrEgEcrEgEcrEgEcDvgEhgrDwEsrDwEsr",
   "DwEspkPpkRfJjkPygEhBkkQVdpkPukQVempkOukYzkZcClWekEakXqkEckEkkYjkYlkYrkEpkErHerBgBDurBgBDvrBgBD",
   "yrBgBFcrBgBDrrBgBDzmkXnkEekElkEqkZlVaqBDogkBEhrBDwBDpkBKrCciHkBbkBAvgpnrBgBKrskChkBMxzrBgBDpxB",
   "gBDwBDpkBKekHbwBKfhkBLkhqBLlgEcBKjhCgBLbIckBLvkBKkkBKqkBLdkBLlkBLjkBLekBKygFrkBKskBKzkBLbgkBKq",
   "kBKngpkBLbpgwBIhDwBQmHoBPgLcHzBwMpkBVjDjgWhhIyCAznKqrCBdCCgsnshMsBxGgzBkDzFchUirCIpCLorCJwCLor",
   "COtCLorCJyCLoXchLcnNqnXiDhNqnLinDmhGmnghCoBfHkBrRihBBarDLlDMyrDLmDMyrDLnDMyrDLsDMyrDLxDMyrDLyD",
   "MyrDMhDMyrDMlDMyIihBwnmnFchBqhgtynCcnmnyBxgzrDQvDRwrDQwDRwhrDRjDRwynFunshBkzmnFchBqhgrDWkDWuhg",
   "rDWqDWuhmnghBezmnstgBrrDViDWurDVjDWurDVoDWughrDWdDWuBrDyCjshCchshFchBqhmhBenCihshsngDnynCuBrBq",
   "hshBwnmnFchBqhmhBenCcnmnsBrszrEFpEGqrEFqEGqhBenEeCjmhBktshytmhghmtmtstCuzBetshyngBlgDhEwBfDahs",
   "hFihDsnCchshyBrmhshmnynCiBrFchshFihCihBenCchshyBrmBfshynCihsCvDahshLuhshBkzDsnGahshEetFohCchgn",
   "BqtgzBkhghBwBlCinsCvLorFKvFJuBqzGsIpmhghBehFohghCurFPtFOsCinBehghBqhCinrFOlFNtrFOlFObmHlCukFSd",
   "MmrFUgFYtyhyrFUqFYtyrFUvFYtyrFVaFYtyrFVfFYtCurFUeFYrszmrFWbFWcgrFWbFWerFYoFWqxFYoFWbFWqrFYpFWq",
   "xFYpFWbFWqBqrFWbFWqDyrFXiFYtyhyrFXsFYtyrFXxFYtyrFYcFYtyrFYhFYtCurFXgFYrshDmhDaIpBKyIyRBchkRCpB",
   "fkRCvnKekGKaWqoCBohynBqhghynJmhynHqhynBqhghynDmhNehynPmnHktGaBlTwnBoHOinFRshGmtUoBrFcCdFoCdEqC",
   "vDahshmCvMaoJgnCiBlCiBlCoBgCiBlUoBrJyBfQeCjHehCuzCuzgtJsnBeCpKezGaBlCotOinPahGsnCoBlCiBlDgnKqn",
   "CuErRuhBMiBxNwtDmtLukBPikBPkkBPuqBPxkBPykBQgkBRfkCKZjpBfKcGJonwGLhBwBxJyBfKekDtkIwkDugqDwkSjCa",
   "DzgkEhkVbkEikEkqEmkEpkDtqWukKZqkDuqDwkXdqXfkDzgkEdkEfkMtkEhkWyqLAkkEiqEmkLArkXzkEokLAzwBKkqBLe",
   "kEbkEkqEnqBKkkBKzqBLeDakBPtHwkWwkDvkWzkJgkXgkDykXjkXlkXpwXskLEhkZtkXxkLErkZvkYbkYaBcYckYiqYskQ",
   "lqYzkLAqqZbkEswZgkBKqOuBItyrDtBBakLNdmkIpgWhBwCaLTgBknBoLTwnBwCaLUmBwCaLVcBknBoLVsnBwhkLWjhkLW",
   "lhkLWnhkLWpBwCaLWygkBKegkBKfgkBKggkBKhgkBLkgkBLlgkBLmnrLTgBKrrLThBKrrLTiBKrrLTjBKrrLTkBKrrLTlB",
   "KrrLTmBKrrLTnBKrrLTgBKrrLThBKrrLTiBKrrLTjBKrrLTkBKrrLTlBKrrLTmBKrrLTnBKrrLUmBKrrLUnBKrrLUoBKrr",
   "LUpBKrrLUqBKrrLUrBKrrLUsBKrrLUtBKrrLUmBKrrLUnBKrrLUoBKrrLUpBKrrLUqBKrrLUrBKrrLUsBKrrLUtBKrrLWy",
   "BKrrLWzBKrrLXaBKrrLXbBKrrLXcBKrrLXdBKrrLXeBKrrLXfBKrrLWyBKrrLWzBKrrLXaBKrrLXbBKrrLXcBKrrLXdBKr",
   "rLXeBKrrLXfBKrmrLXoBKrrBKjBKrrBKeBKrhgrMAgBKrqMAakLXokBKerBKjBKrrBgBEhkBKrrBgBEhrBgBGcxBgBDwBG",
   "crLXsBKrrBKpBKrrBKgBKrhgrMAwBKrkLXqkBKfkLXskBKgrBKpBKrxBgBEhBDoxBgBEhBDpxBgBEhBGcskBJcnmqMBgkL",
   "XukBKhhxBgBEiBDoxBgBEiBDpxBgBEiBGcskBKiyqMBwkLXykBLlkMCbxBgBDwBDoxBgBDwBDpkDsnrLYaBKrrBLhBKrrB",
   "LmBKrhgrMCsBKrkLXwkBLkkLYakBLmrBLhBKrrBgBDprBgBEihkBgkBgkBgkBgkBgkBgkBgkBgkBgkBgkBgimngkMDsBer",
   "BgBFnCutgBrkBgsrMFaMFaxMFaMFaMFagrMFdMFdxMFdMFdMFdyrBhBhgrBgBDtBwrClClrClBhrBhClDaBdMFaMFaMFaM",
   "FaBqkBgBgBfBmkBwkEbnBoCakBrkMXmkCjqBokEgCmBwkBrkMXmkCjqBohkDtkDxkEhkEqkXdkEaBcEdkEiqEltBwrEkEl",
   "FuDhHqDnxDtBvDvxDtBvElkDvrGuDvgxDvBvEhxDvBvEnkXfgrGuDyqDzkEakEakEakLjkEbkEbkEekEegkEgrEgEhmwEi",
   "kEkkEkmrElEfxEmDxEerEmEfgkEsgkBLhgkEsgkEdkIvqDugkDxqDxkMPykEfkEhBcCFgkEbgxDyDtEqkBKykBKlkBKlkB",
   "KykMXlykDwqDwqEbBkxBxMFsCdxBxMFsCfBdBxMFsBxBwxBxMFsBzxByMFsBzxBxMFsCbxByMFsCbxBzMFsCbxCaMFsCbx",
   "BxMFsCcxCbMFsCcxBxMFsCexBzMFsCexCbMFsCexCdMFsCerBxMFskEbrEbEbxEbEbEbrEbEokEorEoEbxEoEbEbBdEoEb",
   "EbEbrEbEqkEqrEqEbxEqEbEbkEeqDvkEfkEbrEbEbxEbEbEbrEbEokEorEoEbxEoEbEbBdEoEbEbEbrEbEqkEqrEqEbxEq",
   "EbEbkEeqDvkEfspyxBwMFsBzmzBKarMYlMYlxMYlMYlMYlgrMYoMYoxMYoMYoMYoCFgqSEyCGwFdCoExCgBxrBxBwrBxBx",
   "rBxByrBxBzrBxCarBxCbrBxCcrBxCdrBxCerBxCfrByBwxBoBxBpxBoByBpxBoBzBpxBoCaBpxBoCbBpxBoCcBpxBoCdBp",
   "xBoCeBpxBoCfBpBdBoBxBwBpBdBoBxBxBpBdBoBxByBpBdBoBxBzBpBdBoBxCaBpBdBoBxCbBpBdBoBxCcBpBdBoBxCdBp",
   "BdBoBxCeBpBdBoBxCfBpBdBoByBwBpErxBoDtBpxBoDuBpxBoDvBpxBoDwBpxBoDxBpxBoDyBpxBoDzBpxBoEaBpxBoEbB",
   "pxBoEcBpxBoEdBpxBoEeBpxBoEfBpxBoEgBpxBoEhBpxBoEiBpxBoEjBpxBoEkBpxBoElBpxBoEmBpxBoEnBpxBoEoBpxB",
   "oEpBpxBoEqBpxBoErBpxBoEsBpGeDtGeDtkBwLRaBdMYlMYlMYlMYlXuxCgCgCjrCjCjxCjCjCjXirQGbBFsBIwnBFwLgQ",
   "TcLcpkXvkLEjkYnmBnkWvkYbkWukWwgpgpBekEckEoqWdXfBqBbspBfKkhgBfgnMyBrkREvgDhFoCdBqhBqhBqhBqhBqhB",
   "qhBqhBqhBDcHxGahykBOVlTekCILrCvkBDOakBDPokBDQckBDQlkBDRlkBDTdkBDTkkBDUekBDVekBETzkBEVlkBEVrkBE",
   "WokBEXikBEYdkBFAekBFAzkBFBkkBFHjkBFKzkBFMbkBFMgkBFNkkBFNtkBFOukBFPhkBFQgkBFSgkBFSykBFTzkBGXbkB",
   "GZvkBHRnkBHSkkBHSskBHTdkBHTvkBHWtkBIPckBIQykBIVokBIWlkBIXekBIYakBJAckBJAfkBJOdkBJOnkBJOzkBJPmk",
   "BJTykBJUgkBJUlkBJYykBJZikBJZvkBKAdkBKCmkBKDdkBKDvkBKGxkBLDgkBLFakBLFvkBMIhkBMImkBMLrkBMMhkBMMu",
   "kBMNpkBMPckBMPhkBMZokBNAmkBNBskBOOukBORikBOSfkBOUlkBOVjkBOVskBOVzkBOXzkBOYekBOZkkBQOxkBRGckBRG",
   "okBRGtkBRGxkBRHfkBRHxkBRHzkBRLckBRTkkBRTpkBSGqkBSHakBSIykBSJfkBSJokBSJwkBSNjkBSNqkBSWkkBSWrkBS",
   "YokBSZfkBTBakBTKdkBTKkkBTLbkBTXqkBUCmkBUCskBUJskBUNbkBUOvkBVDjkBVImkBWEokBWFpkBWHukBWJtkBWMjkB",
   "WMukBWNakBWOhkBWRfkBWRpkBXExkBXFekBXFnkBXFwkBXGmkBXHbkBXHfkBXKgkBXKkkBXKqkBYWjkBYXnkBZPokBZQak",
   "BZQxkCABukCAChkCAFakCAGukCBCpkCBDekCBDtkCBFckCBGnkCBOekCBOqkCBRfkCCAtkCCBykCCJzkCCKukCCKzkCCTl",
   "kCDAnkCDFikCDFokCDFtkCEPrkCEQakCEWakCFBykCFCbkCFDwkCFHxkCFIkkCFIokCFIvkCFMpkCFNxkCFOdkCFOrkCFV",
   "ckCFXbkCFXfkCGEgkCGEjkCGFckCGOukCGQqkCGQxkCGTpkCGTzkCGUckCGUmkCGVqkCHKvkCIAfkCIApkCICbkCICxkCI",
   "DfkCIDpkCIDtkCIFhkCIFlkCIGckCIGhkCIGukCIHvkCIIkkCIIskCIKzkCILokCILsJtkBggkBuLukSFigkBFNtqBFNwB",
   "ehTwnmrBgSKnrBgSKomrSJwSJyVyrSLnSMiBfJyhqGLkkGRykGLmqGSawGLnBoGSekGMkwGLqkGMrCmGLtFaGPdiqGMeqG",
   "TbkGTgkGTikGTnkGTrkGTtkGMmkGTxkGTzqGMnkGMqqGMskGMxkGMzBiGNbkGNikGNmkGNwkGOdkGOiqGUrwGOtqGQmkGQ",
   "qqGQzkGRckGRmkGRphmkBDOakBDTkkBDOjkBGXfkBDOkkBDPtkBDOlkBSJykBDRlkBDOzkBDObkBHTxkBHAmkBDVeQeCjD",
   "sxBoGLkBpxBoGLmBpxBoGLnBpxBoGLpBpxBoGLqBpxBoGLrBpxBoGLtBpxBoGLvBpxBoGLwBpxBoGLyBpxBoGLzBpxBoGM",
   "aBpxBoGMbBpxBoGMcBpxBoCNDoBpxBoCOWuBpxBoCPTkBpxBoCRMqBpxBoCSJgBpxBoCTFwBpxBoCUZcBpxBoCWSiBpxBo",
   "CXOyBpxBoCZIeBpxBoDAEuBpxBoDBBkBpxBoDBYaBpxBoDCUqBpxBoCYCyBpBdBoCXAyCXTkBpBdBoCXAyDDIqBphxBoBD",
   "OaBpxBoBDTkBpxBoBDOjBpxBoBGXfBpxBoBDTsBpxBoBEVtBpxBoBDOdBpxBoBEVrBpxBoBDRpBpxBoBFNtBpxBoBNAmBp",
   "xBoBQOxBpxBoBOZkBpxBoBNBsBpxBoCDFtBpxBoBGZvBpxBoBMPhBpxBoBNLqBpxBoBNAnBpxBoBTXuBpxBoBFVpBpxBoB",
   "RJdBpxBoCBGrBpxBoBTYzBpxBoBFIiBpxBoBDWtBpxBoBFZwBpxBoBIPyBpxBoBTApBpxBoBDXxBpxBoCBIdBpxBoBFOmB",
   "pxBoBTZpBpxBoBDYnBpxBoBXFeBpxBoBXFnBpkBGHzkBJUikBMLrkBUUpBwxEiEmDxrByBxrByByrByBzrByCarByCbrBy",
   "CcrByCdrByCerByCfrBzBwrBzBxrBzByrBzBzrBzCarBzCbkGLkqGLmwGLpkGLtqGLvBiGLykCNDokCOWukCPTkkCRMqkC",
   "SJgkCTFwkCUZckCWSikCXOykCZIekDAEukDBBkkDBYakDCUqrCZIuCNMerCYCyCXMukCXGigkBDOakBDTkkBDOjkBGXfkB",
   "DTskBEVtkBDOdkBEVrkBDRpkBFNtkBNAmkBQOxkBOZkkBNBskCDFtkBGZvkBMPhkBNLqkBNAnkBTXukBFVpkBRJdkCBGrk",
   "BTYzkBFIikBUDskBSKdkBHWtkCCRxkBETekBFPokBPGikCFOvkBDYnkBEXlkBORjkBDOkkBDPtkBDOlkBJOokBFUpkBFNn",
   "kBIRvkBIPykBTApkBDXxkCBIdkBFOmkBHTkrBzCcrBzCdrBzCerBzCfrCaBwrCaBxrCaByrCaBzrCaCarCaCbrCaCcrCaC",
   "drCaCerCaCfrCbBwrBxBNAmrByBNAmrBzBNAmrCaBNAmrCbBNAmrCcBNAmrCdBNAmrCeBNAmrCfBNAmxBxBwBNAmxBxBxB",
   "NAmxBxByBNAmrEaDzxDxEkDzrDxEoxEeEmDwkSKwkSKykSLakSLcqSLekSLhkSLjkSLlkSLnkSLpkSLrkSLtkSLvkSLxkS",
   "LzkSMbkSMekSMgkSMiBoSMkkSMskSMvkSMykSNbBiSNekSNkkSNmBoSNoBcSNvrBDWuBGAmBdSKwSMrSOiSMiBdSKwSNrS",
   "MvSKvBdSKwSNzSNaSKwxSKwSOiSNrBdSKySMlSNzSLkxSKySNzSMbxSLaSLdSNzBjSLcSLtSLjSOiSMjBdSLcSOiSLfSOi",
   "xSLeSNzSLtxSLeSOiSNgxSLfSKySNqBdSLfSNpSMdSMiBdSLfSNtSNqSOixSLgSNtSNzxSLgSNzSNerSLiSLgxSLiSMlSO",
   "iBdSLhSNlSNqSOiBdSLiSNrSMaSOirSLhSNtBjSLhSNtSLkSNpSNgBpSLhSNtSNhSOiSMiSNrBjSLhSNtSNvSMdSMixSLk",
   "SNpSNgBjSLkSNpSNgSMiSNzBjSLjSNrSLwSKySNtBdSLjSNtSOiSMnxSLlSOiSLtxSLnSNrSMkxSLnSOiSNdBdSLpSKySL",
   "jSNrBjSLpSNzSMbSOiSNgBdSLrSNqSNzSLkxSLvSNzSMbxSLvSNzSMixSMaSOiSLtrSMhSLrrSMjSNrrSMiSNzrSMkSMox",
   "SMoSMdSMixSMpSKySMeBjSMrSOiSLvSNzSMixSMrSOiSMeBdSMqSOiSNsSNrBjSMuSKwSLtSMiSNrxSMuSLjSNrrSMuSLn",
   "rSMtSNrBjSMvSKvSNpSMdSMjBdSMvSKxSOiSMiBjSMwSMdSLrSLbSNrxSMvSNpSNzBjSMySLjSLzSOiSNrrSNaSLxxSNaS",
   "MlSMsxSMySNrSMexSNaSNzSLtxSNaSOiSLsxSMzSOiSLzBdSNdSKySNzSMixSNcSNrSMirSNbSNzxSNdSNzSMjxSNbSOiS",
   "NrxSNbSOiSNzBdSNeSKySLjSNtxSNeSKySNrxSNeSMdSMpxSNeSNrSLjBjSNeSNzSLrSNnSNzBdSNfSLjSNtSNzrSNfSNq",
   "BjSNfSNqSMqSOiSNrrSNhSLgBdSNhSLgSMiSNzBdSNhSOiSMiSNrxSNkSOiSMjxSNkSOiSNrxSNmSKwSNzBdSNqSMdSMiS",
   "NrrSNqSNpxSNrSMuSOiBdSNrSOiSMwSNrrSNsSNgBjSNsSNzSMiSLmSNzxSNvSMdSMirBwBQRxrBxBQRxrByBQRxrBzBQR",
   "xrCaBQRxrCbBQRxrCcBQRxrCdBQRxrCeBQRxrCfBQRxxBxBwBQRxxBxBxBQRxxBxByBQRxxBxBzBQRxxBxCaBQRxxBxCbB",
   "QRxxBxCcBQRxxBxCdBQRxxBxCeBQRxxBxCfBQRxxByBwBQRxxByBxBQRxxByByBQRxxByBzBQRxxByCaBQRxxEaEiDtrDw",
   "DtrDtEnxDuDtEkrEhEorEiDvrDwEfxDwEfByxDwEfBzrEbEnrBJTzBLDorBMSbBGAmrBHTvBORjrBMQwBPEpBdBNLqBJZz",
   "BDYwBTXurEiDtrEgDtrBKuDtrEfDtrEdDtrEdDurEfDurDzDuxDvDtEeBdEdDvDtEerEiDyrEgDyrBKuDyrBKuDzrEfDzr",
   "EdDzrEaEsxEdEaEsxEfEaEsxDzEaEsxEmEaEsrBKuEerEfEerDwEerEdEerDyEfrEgEfrBKuEfrEfEfrDvEfrEdEfxEfEf",
   "ByxDvEfByrEfByxEdEfByxEfEfBzxDvEfBzrEfBzxEdEfBzxEfMXpElBdEfMXpElByrEiDtxEdEiDtxEfEiDtxDzEiDtxE",
   "kDtDwBjEkDtDwMXpElBpEkDtDwMXpElByrEiElrEgElrBKuElrEfElrEiEorEgEorBKuEorEfEorEdEorEfEorEiEprEgE",
   "prBKuEprEfEprEdEprEfEprEdBLhrEfBLhhrDuEjrDvDvrDvDwBdDvMXpEdDzhrDwDurDzErrEaDtrEaEirEbEgrEdEdrE",
   "dEfrEdEmrEeEfrEeEgxEeEhDzrEeEqrEfDuxEfEbEexEfEhEerEiEahxEiEiEfrEiEkrElEkrElEorEpDuxEoMXpEfxDtM",
   "XpEfrBxBMPhrByBMPhrBzBMPhrCaBMPhrCbBMPhrCcBMPhrCdBMPhrCeBMPhrCfBMPhxBxBwBMPhxBxBxBMPhxBxByBMPh",
   "xBxBzBMPhxBxCaBMPhxBxCbBMPhxBxCcBMPhxBxCdBMPhxBxCeBMPhxBxCfBMPhxByBwBMPhxByBxBMPhxByByBMPhxByB",
   "zBMPhxByCaBMPhxByCbBMPhxByCcBMPhxByCdBMPhxByCeBMPhxByCfBMPhxBzBwBMPhxBzBxBMPhxDzDtEeJVTetMsCdD",
   "CiErKtEeGpkBQgkBQiUuBxHwDjmOlkCLKpBwBbkLEfClspkXpmBbmEtkXqkXgkXlkXwkXugkZukYxkZtkCMWxDvkCLMakY",
   "skLFaBbkXoDvkPvErkElkDvkDykEjpgkLjkNbLutCiBlMyBxQeBxCuBlBAuCpGytSahCozHqhMsCdDgnCinXuFpGmCjBkn",
   "BknBkCdBqhBqhKekCLHvkCMVvkXvkCMWwCckZdmzSqHLgKqnCiBlDVEeCvFizLiCXAnkCBDgkBMZskCCBykCBIekBPZdkB",
   "DPykBFUbkCILokCILokBHVlkCDFtkBGKdkBHVckBLCokBSVxkBWHpkBYVvkBZKkkBZWqkCCTjkBODukBPIhkBQTdkBRWwk",
   "BYCbkCDBukCGHtkBDTakBFPtkBONskBRFnkBYVdkCHWwkBJIukBQJzkBYRlkCAAukBLKrkBXEmkBZOhkBJXikBNBbkBPLi",
   "kBROekCCVukBEDakBEYpkBFJykBMEekBOLvkBRFckBTAtkBWMjkBYTqkBYWykCBTnkCFGskCGWlkCHVmkBTQykBUAhkBVO",
   "ykBXXpkCDRokCIApkCAPakBHRbkBJZokBVCqkBWRekBRIgkBTTikCBHykCFElkBHQukBIZqkBOElkBPPqkBQBnkBVKpkBV",
   "UtkCEXvkBFJmkBWRrkBFAakBEZkkBUGikBVQckBXZdkCEZlkCAVokBLKxkBODukCAQokBDQfkBIUxkBKJykBRTnkBSMikB",
   "FMdkBTVfkBEFfkBKFxkBDOnkBPFgkBMLckBVKckBFStkBHMckBTBtkBYCnkCANikBOUskCCKukBPCqkBLMskBXOvkBLSyk",
   "BSLxkBDUskBEVpkBEZhkBNOzkBVHvkBXKhkCAOwkCDFrkBFKvkBFXqkBHWtkBJYqkBMObkBQKskBTXakCERtkCGMkkCIBn",
   "kCIDqkBFHjkBMXykBOSdkCCHukBJUakBKYqkBLCykBMCokBQChkBQXlkBSDlkBUDekBVSekBWQpkCCFmkBYIwkCCPfkCDU",
   "gkBFChkBFHrkBGCjkBQSmkBZUokCANikBJXhkBKIvkBLRnkBOUgkBVBikBRSvkBDWukBGYjkBIUxkBJMwkBKKikBRVekBS",
   "CfkBWIkkBWPakCDJokCFEkkCFHokCFPokBEDfkBUCckCDEqkCFCakBKRxkBDTekBEQckBIVekBIYhkBMMjkBODukBRCokB",
   "SUkkBYJkkCCSqkCIKzkBMVokCEWskBFGrkBNExkBNJnkBPJtkBPXckBRYnkBSLlkBTPrkBVJkkCFSgkBEVtkBLEskCEZok",
   "BEJjkBJGrkBPQgkCCFqkBKEtkBKVskBNKxkBRTnkCFAckBFCzkBFVrkBIZtkBMRbkBNDekBNQmkBPGfkBRYkkBSQskBWHd",
   "kBZVbkBZVtkCDFokCFDqkBFNrkBPYgkBFWfkBRCqkBSEakBYTekCFBfkCHFjkCIBvkBNFzkBPPbkBXFckBUNbkBUQikBVE",
   "okBRLwkBQQrkCAUakBDVkkBXRykBFDqkBFBrkBJVykBLLbkBVHekBIRdkBPIkkBMXgkCCGhkBZQakCEXxkCAChkBJXrkBE",
   "UakBGMimkBHLygkBMUumkBFAckBRPykBSZqkBTXskBTZakBTZhkBUAxkCFIckBVGgkBWJtgkBYUcgkCAQimkCCQakCCXps",
   "kCFXvkCFYikCGAakCHSukCCWkkCFBzkBEEokBEQpkBEUnkBFJdkBFKekBFOjkBGKzkBGPakBGSukBHKykBHOykBIZskBJA",
   "ckBKOykBKXckBKYokBLCkkBMJnkBMPekBMVxkBNPdkBPLvkBPSckBQCgkBQYwkBRGdkBRZmkBTRdkBTXukBTYfkBTYekBT",
   "YmkBTYskBTYzqBUAvkBUHskBUKfkBUWmkBVSekBVSzkBVVdkBWGwkBWMnkBXFhkBXKrkBXKrkBYDbkBZXokCACskCAQrkC",
   "ASvkCBIpkCBKqkCCLakCCQakCFDrkCFOpkCFQxkBKNtkILGgkBXGynkBDPmkBEYnkBEVokBECukBEUfkBEWmkBFJbkBFLa",
   "kBGKzkBGIfkBGKvkBGNqkBHLykBHPjkBHUykBHVokBIFykBINokBJXqkBJXxkBKDlkBKGbkBKRokBKWckBKTkkBKYokBKW",
   "ukBLCkkBLEykBLUikBLXskBLZukBMJukBMUukBNBbkBNBfkBNDmkBOSfkBOUskBPJtkBPZnkBPYxkBQCgkBQLykBQYwkBT",
   "IdkBRGnkBRLfkBRPykBSCnkBSIgkBSKhkBSSzkBSTbkBSZqkBTAhkBTBgkBTEokBTEekBTTkkBUMbkBUWmkBVDrkBVMhkB",
   "VSekBWEwkBWMnkBXTakBXZbkBZHxkBZZlkCACckCACskCAOdkCAQikCAOpkCAQrkCAQokCAPxkCASvkCAVykCBKqkCCGek",
   "CCSgkCDDpkCDMckCEZskCFDrkCFIckCFNfkCFOpkCFPbkCFQxkCGSwkCILokIBDykIBDskIFNpkWOzkYHckYIjkIRBlkIV",
   "BckJHXzkCIIdkCILaIvrDyDyrDyEbrDyEexDyDyEbxDyDyEerElEmrElEmCvrCBsCBurCBsCBdrCBsCBjrCCcCBurCBsCB",
   "lBfrCFpCEegrCGoCEhkCFykCFgqCFjwCFrkCGekCGgkBrrCGfCErrCGfCEsxCGfCEmCErxCGfCEmCEsrCFgCEhrCFgCEir",
   "CFgCEmrCFhCEmrCFiCEmrCFjCEmrCFkCEmrCFlCEmrCFmCEmhrCFoCEmrCFpCEmrCFqCEmrCFrCEmrCFsCEmhrCFuCEmhr",
   "CFwCEmrCFxCEmhrCFzCEmrCGaCEmhrCGcCEmrCGdCEmrCGeCEmrCGfCEmrCGgCEmrCFlCEjrCFhCEprCFrCEprCGaCEprC",
   "FgCFskCLlkCLlkCLvkCLvkCLvkCLvkCLykCLykCLykCLykCMakCMakCMakCMakCLukCLukCLukCLukCLzkCLzkCLzkCLzk",
   "CLtkCLtkCLtkCLtkCNkkCNkkCNkkCNkkCNmkCNmkCNmkCNmkCMekCMekCMekCMekCMdkCMdkCMdkCMdkCMgkCMgkCMgqCM",
   "gkCMhkCMhkCMhkCMnkCMnkCMmkCMmkCMokCMokCMikCMikCMykCMykCMrkCMrkCNpkCNpkCNpkCNpkCNvkCNvkCNvkCNvk",
   "CNzkCNzkCNzkCNzkCNxkCNxkCNxkCNxkCOgqCOgkCOhkCOhkCOhkCOmqCOmkCOnkCOnkCOnkCOkkCOkkCOkkCOkkCPeqCP",
   "ekCPfHqkCNtkCNtkCNtkCNtkCOtkCOtkCOskCOskCOukCOurCOtCLokCOxkCOxkCOrkCOrkCOvkCOvkCPckCPckCPckCPc",
   "kCJxkCJxrCIoCIprCIoCIprCIoCPhrCIoCPhrCIoCJwrCIoCJwrCIoCOtrCIoCOtrCIoCOsrCIoCOsrCIoCOurCIoCOurC",
   "IoCPcrCIoCPcrCIoCPcrCIoCJxrCIoCJxrCIoCJxkCOykCOykCOykCOyrCIoCIurCIoCIvrCIoCJtrCIoCJxrCIoCJyrCI",
   "qCIurCIqCIvrCIqCIwrCIqCJtrCIqCJxrCIqCJyrCIsCIurCIsCIvrCIsCIwrCIsCJtrCIsCJxrCIsCJyrCItCIurCItCJ",
   "trCItCJxrCItCJyrCIuCIvrCIuCJtrCIvCIurCIvCJtrCIwCIurCIwCIvrCIwCJtrCJbCIurCJbCIvrCJbCIwrCJbCJtrC",
   "JdCIvrCJdCJtrCJeCIurCJeCIvrCJeCIwrCJeCJtrCJfCIvrCJfCJtrCJgCJtrCJhCIurCJhCJtrCJiCIurCJiCJtrCJpC",
   "IurCJpCIvrCJpCIwrCJpCJtrCJpCJxrCJpCJyrCJqCIvrCJqCJtrCJqCJxrCJqCJyrCJrCIprCJrCIurCJrCIvrCJrCIwr",
   "CJrCJsrCJrCJtrCJrCJxrCJrCJyrCJsCIurCJsCIvrCJsCIwrCJsCJtrCJsCJxrCJsCJyrCJtCIurCJtCIvrCJtCIwrCJt",
   "CJtrCJtCJxrCJtCJyrCJuCIurCJuCIvrCJuCIwrCJuCJtrCJuCJxrCJuCJyrCJvCIurCJvCJtrCJvCJxrCJvCJyrCJyCIu",
   "rCJyCIvrCJyCIwrCJyCJtrCJyCJxrCJyCJyrCIyCLkrCIzCLkrCJxCLkxBgCKaCKfxBgCKbCKfxBgCKcCKfxBgCKdCKfxB",
   "gCKeCKfxBgCKfCLkrCIoCIzrCIoCJarCIoCJtrCIoCJurCIoCJxrCIoCJyrCIqCIzrCIqCJarCIqCJtrCIqCJurCIqCJxr",
   "CIqCJyrCIsCIzrCIsCJarCIsCJtrCIsCJurCIsCJxrCIsCJyrCItCIzrCItCJarCItCJtrCItCJurCItCJxrCItCJyrCJp",
   "CJxrCJpCJyrCJqCJxrCJqCJyrCJrCIprCJrCJsrCJrCJtrCJrCJxrCJrCJyrCJsCJtrCJsCJxrCJsCJyrCJtCIprCJtCJt",
   "rCJuCIzrCJuCJarCJuCJtrCJuCJurCJuCJxrCJuCJyrCJxCLkrCJyCIzrCJyCJarCJyCJtrCJyCJurCJyCJxrCJyCJyrCI",
   "oCIurCIoCIvrCIoCIwrCIoCJtrCIoCJvrCIqCIurCIqCIvrCIqCIwrCIqCJtrCIqCJvrCIsCIurCIsCIvrCIsCIwrCIsCJ",
   "trCIsCJvrCItCJtrCIuCIvrCIuCJtrCIvCIurCIvCJtrCIwCIurCIwCJtrCJbCIurCJbCIvrCJbCIwrCJbCJtrCJdCIvrC",
   "JdCIwrCJdCJtrCJeCIurCJeCIvrCJeCIwrCJeCJtrCJfCIvrCJgCJtrCJhCIurCJhCJtrCJiCIurCJiCJtrCJpCIurCJpC",
   "IvrCJpCIwrCJpCJtrCJqCIvrCJqCJtrCJrCIurCJrCIvrCJrCIwrCJrCJsrCJrCJtrCJsCIurCJsCIvrCJsCIwrCJsCJtr",
   "CJsCJvrCJtCIurCJtCIvrCJtCIwrCJtCJtrCJuCIurCJuCIvrCJuCIwrCJuCJtrCJuCJvrCJvCIurCJvCJtrCJvCLkrCJy",
   "CIurCJyCIvrCJyCIwrCJyCJtrCJyCJvrCIoCJtrCIoCJvrCIqCJtrCIqCJvrCIsCJtrCIsCJvrCItCJtrCItCJvrCJbCJt",
   "rCJbCJvrCJcCJtrCJcCJvrCJrCJsrCJrCJtrCJsCJtrCJuCJtrCJuCJvrCJyCJtrCJyCJvxCJoCKcCKfxCJoCKdCKfxCJo",
   "CKeCKfrCJfCJxrCJfCJyrCJhCJxrCJhCJyrCJiCJxrCJiCJyrCJbCJxrCJbCJyrCJcCJxrCJcCJyrCIvCJxrCIvCJyrCIu",
   "CJxrCIuCJyrCIwCJxrCIwCJyrCJdCJxrCJdCJyrCJeCJxrCJeCJyrCJcCIurCJcCIvrCJcCIwrCJcCJtrCJcCIzrCJbCIz",
   "rCJdCIzrCJeCIzrCJfCJxrCJfCJyrCJhCJxrCJhCJyrCJiCJxrCJiCJyrCJbCJxrCJbCJyrCJcCJxrCJcCJyrCIvCJxrCI",
   "vCJyrCIuCJxrCIuCJyrCIwCJxrCIwCJyrCJdCJxrCJdCJyrCJeCJxrCJeCJyrCJcCIurCJcCIvrCJcCIwrCJcCJtrCJcCI",
   "zrCJbCIzrCJdCIzrCJeCIzrCJcCIurCJcCIvrCJcCIwrCJcCJtrCJbCJvrCJcCJvrCJfCJtrCJbCIurCJbCIvrCJbCIwrC",
   "JcCIurCJcCIvrCJcCIwrCJfCJtrCJgCJtrCIpCJzrCIpCJzEexCIsCIuCJtxCIsCIvCIuxCIsCIvCIuxCIsCIvCJtxCIsC",
   "IwCJtxCIsCJtCIuxCIsCJtCIvxCIsCJtCIwxCIuCJtCIvxCIuCJtCIvxCIvCJtCJyxCIvCJtCJxxCJbCIvCIuxCJbCIuCI",
   "vxCJbCIuCJxxCJbCJtCIvxCJbCJtCIvxCJbCJtCIuxCJbCJtCJtxCJbCJtCJtxCJdCIvCIvxCJdCIvCIvxCJdCJtCJtxCJ",
   "cCIvCJtxCJcCIvCJtxCJcCIuCJyxCJcCJtCIwxCJcCJtCIwxCJcCJtCJtxCJcCJtCJtxCJeCIvCJxxCJeCIwCJtxCJeCIw",
   "CJtxCJfCJtCIvxCJfCJtCIvxCJfCJtCJtxCJfCJtCJyxCJhCIuCJtxCJhCJtCJtxCJhCJtCJtxCJhCJtCJxxCJiCJtCJtx",
   "CJiCJtCJyxCJiCJtCJxxCJpCIwCJtxCJpCIwCJtxCJqCJtCIvxCJqCJtCJtxCJsCIvCJtxCJsCIvCJyxCJsCIvCJxxCJsC",
   "IuCIuxCJsCIuCIuxCJsCIwCJtxCJsCIwCJtxCJsCJtCIvxCJsCJtCIvxCJtCIvCIuxCJtCIvCJtxCJtCIvCJyxCJtCIuCI",
   "vxCJtCIuCJtxCJtCIwCIuxCJtCIwCJtmxCJtCIuCIwxCJvCJtCIuxCJvCJtCJtxCJuCIvCJtxCJuCIvCJxxCJuCIuCJtxC",
   "JuCIuCJtxCJuCIuCJxxCJuCJtCJyxCJuCJtCJxxCJyCJtCJtxCJyCJtCJtxCIqCIwCJyxCIsCIuCJyxCIsCIuCJxxCIsCI",
   "wCJyxCIsCIwCJxxCIsCJtCJyxCIsCJtCJxxCIuCJtCJyxCIuCIvCJxxCIuCJtCJxxCJbCIwCJxxCJdCIvCJyxCJcCIvCJy",
   "xCJeCIvCJyxCJsCIuCJyxCJsCJtCJyxCJyCIvCJyxCJyCIuCJyxCJyCJtCJyxCJtCJtCJyxCJqCJtCJyxCJuCIvCJyxCJq",
   "CJtCIvxCJsCIvCJtxCJhCJtCJyxCJrCJtCJyxCJuCIuCIvxCJtCIwCJyxCJsCIuCJtxCJrCJtCJtxCJsCIuCJtxCJuCIuC",
   "IvxCIuCIvCJyxCIvCIuCJyxCJtCIuCJyxCJpCJtCJyxCIqCIvCJyxCJrCJtCJtxCJhCIuCJtxCJdCJtCJtxCJbCIwCJyxC",
   "JuCIuCJyBwHlxCJdCJsCPexCJqCJsCPeBdCIpCJsCJsCJvBdCIpCJrCIqCIzBdCJtCIvCJtCIxBdCJdCJsCJhCJtBdCIzC",
   "JbCJwCJsBdCJhCJsCJyCJvBdCJwCJbCJsCJtxCJdCJsCJxEjCJdCJsCJxBgCIpCJsCJsCJvBgCJhCJsCJyCJvBgCJwCJbC",
   "JsCJtCbCIuCJsBgCIuCJsCIpCJsCJvBdCIzCOyCIpCJssDukBskSErhqCgkBhkClqSFmBrDshkMDwkMDvkDrkDrqBokEtk",
   "EvqSFkqSFgqSFaqSEyBcSFcmkDnkDprBgBDtrBgBDtrBgBDtrBgBDtkDrkDrkDrkBskSErnkChkCgkClkBhkMDwqBokEtk",
   "EvqSFkkBjkBmqBqkBtkCikCkkCjhkDoqBkkCmzrBgCJzrCJoCJzrBgCKagrBgCKbhrBgCKcrCJoCKcrBgCKdrCJoCKdrBg",
   "CKerCJoCKerBgCKfrCJoCKfrBgCKgrCJoCKgqCIjqCIkqCIlqCImqCInkCIokCIoqCIoqCIpkCIqkCIqqCIqqCIrkCIskC",
   "IsqCIskCItkCItqCItkCIukCIuqCIukCIvkCIvqCIvkCIwkCIwqCIwqCIxqCIyqCIzqCJakCJbkCJbqCJbkCJckCJcqCJc",
   "kCJdkCJdqCJdkCJekCJeqCJekCJfkCJfqCJfkCJgkCJgqCJgkCJhkCJhqCJhkCJikCJikCJikCJpkCJpkCJpqCJpkCJqkC",
   "JqqCJqkCJrkCJrqCJrkCJskCJsqCJskCJtkCJtqCJtkCJukCJuqCJukCJvkCJvqCJvqCJwqCJxkCJykCJykCJyrCJsCIkr",
   "CJsCIkrCJsCIlrCJsCIlrCJsCInrCJsCInrCJsCIprCJsCIpnihHoBhGeDtImDnqPSvkBuqSFckSErkSOhkSNykSKvkSKx",
   "kSKzkSLbkSLdkSNjkSNlkSNnkSMdkSOikSKwkSKykSLakSLcqSLekSLhkSLjkSLlkSLnkSLpkSLrkSLtkSLvkSLxkSLzkS",
   "MbkSMekSMgkSMiBoSMkkSMskSMvkSMykSNbBiSNekSNkkSNmBoSNokSNvkSNzqSKniqGLkkGRykGLmqGSawGLnBoGSekGM",
   "kwGLqkGMrCmGLttBoGPdnBoGPjnBoGPpnwGPvtqGgkGqrBgBDskGkkGjkMJphkOAkBcMSmkOGmkOIdDzCuhGahEkhmhDmn",
   "DgHxBCkBfszKktUihDatgKxKqBEbGstLiDnGmzIiCdGyBfJyBfGyhIozDgJtJkDUNoBBgnCiBlImDUUizIizJgBxMaCpgC",
   "sDVBrhDqDVCdhBuDVCthqDVDbhCohDmhBqhmtMaCvCTuCdFcCjBwFpgqBBskIwkZpkWxhkZzkCMXqkBAbkBAaqXakLFdkX",
   "ckXikBAfkXokXmkXkkZrkLjkZskXrkYuqBAgkXwkGZKmkCLLukXykGZKnkZekGZKokJoqYgkEjkYkkGZKqqYnkYqkBAekB",
   "AckCMXrkBAdkYykQVphkZfqZxkZowRgkGZKskGZLmPzBknghKehmtgnFihQqBxCcLdEkhmBfHqtGgBfGgIvMyzEqnLohmB",
   "fBwhshGsnszCiBrCcBrOuHlJazCuCdMmtGsnGgBfGaBryCvBqSnQwMtLyDXUeDbLuBrKqBxCiBlDsFgDYAytGsBxmBWbHe",
   "hJshsnmDtBkBxCcHrKqBxJsFdGaIvGmErFiCdSazIiCdOihBeDbFuBrCiBlMghEeBxJaCdWehEqCpEehKwOjBqhghyhDmh",
   "CoBlNqBfCiBlyhBwnmnFchBqhmhBehCinmnsngBlgBfBqnBqtBeCpCihgnghIuhCihgnghyhCihmBxmGtVghBeGzQqBxCi",
   "BMjMmnIuHxPyCpCiBlDaElNkBlCiBlEqGnGgnDmzFiBQtNwXdHoECIiLuCvBwngnBwhmhGyhmnCuCdCiQfBwnKqnCoGhQq",
   "BxTeDbQwBrCiTxBwUjHwDhCiBlCchKkhDgCjGstHknFchDgQxBqhmhKetghmhCcBxCiBlBkhmhIohmhBkBrCiBlKezCiCE",
   "vFuBrDyhJmtGsTrgDnLoDbIFaXpZqhBeCpBTgXKjWwDbJNkDtFcCjBJLyBfFEoCIStNkPKfFBiBrHehCizSshCiBlGynBk",
   "CjQeCjCihBqhEwBfEkDVtNkBTtHoFITkNqBfFyFIWxnFuKfRizNeBrDyOvBeCpBqCdCNNoJnHkWlBAoCZFzyhBqhmhCPeD",
   "ngGtsngDhyBxDNkUMrYsBfDatCcBrCinyBaBIXlBXkGeDtCmBwstDWqBlFiDnDyDnKqnFiCdBAuNxCEuCjJanMgrGUFvGU",
   "GjrGUFwGUGjxGUFwGUGjGUGsxGUFwGUGjGUGtxGUFwGUGjGUGuxGUFwGUGjGUGvxGUFwGUGjGUGwDgByOurGUJpGUGjrGU",
   "JqGUGjxGUJpGUGjGUGsxGUJqGUGjGUGsxGUJpGUGjGUGtxGUJqGUGjGUGtJsExQeBCfEqCvEqCvUcCdFuBFfGeDtGeDtGe",
   "DtBuDthEiEbGeDtGeDtkDthqDvnkDznqEcnBcEghCaElBcDthkDyhBuEahCsEiGeDtGeDtqDthBcDwnCaEchBuElhGeDtq",
   "DthBcDwhBiEbhkEhtBuElhGeDtGeDtGeDtGeDtGeDtGeDtGeDtGeDtGeDtGeDtGeDtGeDtGeDtkLtkVvnEcBKjkBKqBuBL",
   "bkMXbEcBKjkBLbBuBLbkMWwkBKnkBKqkBKskBLekBKzkBKyEcBKjkBKqBuBLbkMXbEcBKjkBLbBuBLbkMWwkBKnkBKqkBK",
   "skBLekBKzkBKyEcBKjkBKqBuBLbkMXbEcBKjkBLbBuBLbkMWwkBKnkBKqkBKskBLekBKzkBKyEcBKjkBKqBuBLbkMXbEcB",
   "KjkBLbBuBLbkMWwkBKnkBKqkBKskBLekBKzkBKyEcBKjkBKqBuBLbkMXbEcBKjkBLbBuBLbkMWwkBKnkBKqkBKskBLekBK",
   "zkBKykBMbkBMbnCmBwCmBwCmBwCmBwCmBwFUmDnBehDmJUvHeBlBkBXfBqhDynBqhmhBeBfCgBPgwBPqCsBPukBQhqBQjk",
   "CLBtkBVtkBQskBQukBWjkBUdkBVjCgBPgqBPqqBPukBPxBoBPzqBQgkBSzkBQskBQrkBRbkBTzkCKZpkBUfHrgZxKktDgn",
   "CizmCVxHeDzNkBfgEDdJsBXlJyzgBSjHehFcBxmBZtBqhyhmhDmhBTmnDsJnIaHDGcJszCizmGZfPsRpOcBSvqCIpkCIuk",
   "CIxhkCJwkCJakCIvkCJfkCJyBcCJrkCJbkCJhkCJpkCJdkCJqkCIzkCJcqCIskCIwkCIykCJekCJgkCJikCLikCOgkCNhk",
   "CLjhkCIqkCIuhkCJvnkCIvhkCJyBcCJrkCJbkCJhkCJpkCJdkCJqhkCJcqCIskCIwhkCJehkCJiBlkCIuzkCIvhkCJyhkC",
   "JshkCJukCJbkCJhhkCJdkCJqhkCJcnkCIwhkCJehkCJihkCOghkCLjhkCIqkCIuhkCJvnkCIvkCJfkCJykCJrhqCJtkCJb",
   "kCJhkCJpkCJdkCJqhkCJcqCIskCIwhkCJekCJgkCJikCLihkCNhhqCIpkCIukCIxqCJvkCJakCIvkCJfkCJyhwCJskCJbk",
   "CJhkCJpkCJdkCJqkCIzkCJcqCIskCIwkCIykCJekCJgkCJiBfkCIqkCIukCIxhkCJwkCJakCIvkCJfkCJyhwCJskCJbkCJ",
   "hkCJpkCJdkCJqkCIzkCJcqCIskCIwkCIykCJekCJgkCJiMbmCKjKezXcCvDmnDmhDmhIoCprBwBsrBxBsrByBsrBzBsrCa",
   "BsrCbBsrCcBsrCdBsrCeBsrCfBsBexBoDtBpxBoDuBpxBoDvBpxBoDwBpxBoDxBpxBoDyBpxBoDzBpxBoEaBpxBoEbBpxB",
   "oEcBpxBoEdBpxBoEeBpxBoEfBpxBoEgBpxBoEhBpxBoEiBpxBoEjBpxBoEkBpxBoElBpxBoEmBpxBoEnBpxBoEoBpxBoEp",
   "BpxBoEqBpxBoErBpxBoEsBpxSFkElSFlkDvkEkrDvDwrEpEsgGeDtrEaEorEfEorElDwrElElxEiEiEorEpDvGarEfDvrE",
   "fDwrEfEkIcrDwEcGsMzGarSJjSHnrSLnSLnkSLpDbkBLFvkBIPjkBFTckSMhkBDTkkBHTikCAFrkBHTxkBDUikBMRokBQV",
   "xkBMMjkBFEjkBKEukBEWzkBMNgkBFCnkBVLikBSJfkCBGzkBHRskBFXhkBQBskBLIrkBLQbkBDOakBDOjkCCQskBJOokBD",
   "PtkBFUpkBLNbkCBOqkBLGdkBUAjkBUJykBFVkkBPWakBNAnkBNAmkBSJzkBFFukBGLykCDArzxSFkBNBwSFlxSFkBDOjSF",
   "lxSFkBDTkSFlxSFkBIRhSFlxSFkBQRxSFlxSFkBLGdSFlxSFkBTAdSFlxSFkBFJxSFlxSFkBMJvSFlBrkBKFfkBFUlDhBk",
   "BJpITitDytDatBYiBlCuzgDnCuzMyBxCiBlJgBxGynCuzmDhCcJbDBkBxDgnDatCotNehgzDsnCuzCiBrBHyhVgCmBwgJD",
   "nOPEmHlBMXgnBZGmnCOIoDnFNoVXdkBDQjkBDQekBDQnkHMIkkBEBokBEEokBEFbkBEHukBEMkkBENpkBEQpkBEPrkTYck",
   "HOGokBEUnkBEUukBEVkkBEWdkHNVokTZdkBEVnkBEWzkHNXjkBEXjkBEXwkBDVwkBEYekBEYnkJPDnkBFAzkBFBnkUApkB",
   "FDrkBFEckBFFukBFFzkUCrkBFJbkBFJdkBFKekBFLaqBFLlkBFMdkBFObkBFOjkBFOskBFPrkBFQbkBFQdkBFQdkBFQdkH",
   "PTkkBQPckBFTakBFTvkHQFjkBFUhkBFUnkBFVikBGBekBFXgkBFXwkBFZckBGBikBGEokBGFokBGIdkBGItkBGKakBGKak",
   "BGKvkBGLnkBGLvkBGMkkBGZmkBGPakBGZnkBGRxkBGTgkBFBrkBHRqkBHGokBHIakBHIzkBHDzkBHKkkBHKjkBHPckHTUy",
   "kBHRukBHRzkBHSokBHTikBHTqkBHWckHUMikHUOwkBIBkkBIDfkBIDrkBIAqkBIGckUUwkUVkkBIMikBIOkkBIOkkHVRck",
   "BITnkBIUikBIUxkBIVjkHWEakBIVvkBIWckBKCpkBIXekVAnkBIZokBJAckBJDgkBJBhkHXFokBJIhkHXFqkBJJykBJJvk",
   "BJKmqBJOjkVHfkBJPlkBJRckBJRxkBJTpkVJekHYPfkVKekBJWikBJWlkBJWokBJXikJVVukBJZikHZFtkHZFtkBXGbkBK",
   "AskBKAskVNbkIFCqkIWYskBKDekBKDnkVOdkBKFikBKHhkBKHrkBKIzkBKOfkVRmkVQikBKOykIAPokBKQxkBKVwkBKWak",
   "BKWckBKWakBKXukBKYokBKZykBKZkkBKZvkBLBqkBLCkkBLCokBLDokBLDzkBLGnkBLJtkBLLckBLPwkICFckBLPdkBLMq",
   "kBLQukBLRvkBLVokICNxkBLXykBLUjkBLThkWAwkBMArkBMBmkBMCrkBMBfkWDgkBMJnkBMKqkIECgkBMPfkBMZwkBMTdk",
   "WJxkBMVxkWJgkWHwkBEXekBEXhkBNAekBMWikBWSzkZSbkBNBbkBNBfkBNBlkBNDukBNDjkIFMxkWLtkBNJukBNFhkBNNe",
   "kBNPdkIFTlkBNPmkBNLfkBNUqkWOzkBNWkkBOAdkBOCwkBOKekIGPfkBOMdkWTskBOOvkIHJbkBOQukWVukBORykBOTrqB",
   "OUskIIBtkHWXfkIIFykBPAkkIIXgkBPEtkBPFhkBPBjkBPIckBPJqkBPLvkBPJtkBPLhkBPLwkBPMjkIJBakBPJgkBPSxk",
   "BPVikXEpkBPYxkBPYtkIJRtkBPQvkBQFekIJXekIJZakBQIokBQMzkBQLykBQLvkXIkkBQNqkBQPpkBQPjkBQRlkHNVxkB",
   "QXhkILAxkBRAqkILNnkBRGakBRGnkBRHokIMKukBRJkkBRKfkIMWjkINEykBRTakBRTrkXTckBRUrkXTokXTokBSAxkBSB",
   "skBSCnkBSDhkBSFykXXjkBSJkkIOTqkBSKkkIOXekBSMikHYQhkBSSmkIQBhkIQCekIQHokYGakYGmkBTBgkIQOhkIQOgk",
   "IQPtkIQQtqBTCwkBTCxkBTEokYIjkBTHbkYIwkYLykIRTlkBTOokBTQykBTTkkYOxkISNmkBTYskISRykISTpkBUAxkBUE",
   "lkYRvkBUHskBUIckBUIhkITUikIUFvkIUFvkBUOkkYZykIUPvkBUWskBUWvkZBjkIUYakBVHakZGakBVHwkBVHrkBVIukI",
   "WBukBVMpkZJtkBVQlkBVSskBVVhkZLskIXBskIXCxkZNdkIXInkBWHekIXMkkBWIfkBWMckBWMnkIYCgkIYFbkBWQakIYK",
   "ekBWQqkIFJbkZRxkBWTekBWWhkZTzkBWYokBIJdkIZDvkIZEjkIFLbkIFLkkBXGbkBXGekCCKckZXrkBXLpkBXLjkBXMbk",
   "BFIhkBXMvkBXMxkBXNhkBXOwkJANckBXOvkBXQzkBXTrkBXWnkBXRfkBXXdkBXYtkBYDbkBXTbkBXXqkBXXskBXYikJAWs",
   "kJBIpkJBCvkBAFbkBYIzkBYJbkBYKkkJDTikBYNkkJBZwkBAGzkBAHdkJCEzkJCQckBAHnkBYWmkBYWykBYXjkBYXlkBYZ",
   "xkBYYqkBZDukBZCckBZHxkBZEukBZHjkBZIkkBALrkBZLxkBZNdkBAMzkBZQukBZQxkJETbkBZVjkBZVqkBAPhkBZWskTZ",
   "fkJFPmkJFWokBAUokBAUxkCAMykCAPxkCAVykCBDtkJHCqkCBHbkCBHxkCBLjkCBOxkJIBnkHOYekCBSdkCBRokCBTokHP",
   "GokCCCikCCGekJKOwkJKPxkCCTokCCXdkCCYjkJLCgkCCYtkCDJsqCDPvkCDMikCEAzkCECbkJMXmkCEQlkBBWnkCESdkJ",
   "NMdkBBZqkCFClkBJMokCFGdkJOXpkJPFukBCEwkBCFekCFNkkJPYwkBCHmkJQEgkCFPbkCFPbkCFQfkJQPikCFXikBCMlk",
   "CGAbkCGExkCGFykCGIgkBCSkkJSRgkCGSwkCHEmkCHLtkBDCgkBDDlkCHPvkJUUokBDDwkJUWrkJVGwkJVLxkCICxkBDHm",
   "kCIFhkCIFmkCIFtkCIGdkCIGkkCIHvkJWTsNJpBRVuBfCXJgJHPNpCDmBFYv"]

/-- The stretches of the code points behind ASCII; what lies behind the last is refused. -/
def stretches : List Stretch :=
  Stretch.ofNumbers (Text.Packed.numbers mappingTable)

/-- What becomes of a code point that stands at a place counted from the first of the stretches. -/
def formIn? (n place : Nat) : List Stretch → Option (List Nat)
  | [] => none
  | stretch :: rest =>
    if place < stretch.length then stretch.form? n place
    else formIn? n (place - stretch.length) rest

/-- What becomes of a character, unless it is refused. -/
def form? (c : Char) : Option (List Char) :=
  if c.toNat < 0x80 then some [c.toLower]
  else (formIn? c.toNat (c.toNat - 0x80) stretches).map fun form => form.map Char.ofNat

/-- Whether a character is kept as it is. -/
def isKept (c : Char) : Bool :=
  form? c == some [c]

end SchemaAtlas.DomainName
