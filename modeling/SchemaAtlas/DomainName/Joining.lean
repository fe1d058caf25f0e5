import SchemaAtlas.DomainName.Combining

/-!
# Joiners in labels

Two characters without a look of their own say whether their neighbours join. They stand in a label
only where they make a difference. The table covers the characters of Unicode 17 that are kept in
domain names.
-/

namespace SchemaAtlas.DomainName

/-- On which sides a letter joins its neighbours. -/
inductive Joining where
  | never
  | onBothSides
  | onLeft
  | onRight
  /-- A mark, through which its neighbours join. -/
  | through
deriving DecidableEq, Repr

/-- The runs of joining letters. -/
def joiningTable : List String :=
  ["YqaEjeKoaieKcaBtebabebacebacebajeCmalefabbbaedbbbdbbbdfbednbbahbbdcbveoacbbeddfapbsdBmbbdcbjdb",
   "bbdbbbdcbcdbabdiebagecacebaeecdkadbcabbqabdbedbfdebbdjbbdbbbdbbbdcbbdBdebdlbddpbcdebbdbbcddbcd",
   "gbBmalezaBhbjejabeyaeebajebadebaheqabdfbcdbbbdkbbdbbddfecabbbaebbabdbbBaddabbcafbbdibjekbddbab",
   "dcbcdgbbdpbbaCfeCdabebabeeaieeabedapecaceBdabeCgabeeagegabeuaeeyafeCfacedaBbeuacedabelaceCfabe",
   "eaieeadesaeeuaieCgabecabebagegakelaeeBcabeCjabemadeBwabedabeCdabebadefasekaeeBbabeCgabecabegab",
   "efajenaeeBaaceCfaceeafehabeuaeeBbabeCuafedageDlabecaleiaieDuabecajelaieCuaceBbabebabebabeCdaoe",
   "bafebacefaBxeiabeDyaeebagebacecacezaceeadeqaeenabecacegabepabeBBbadeBKkadeBdaceBeaoesaoeCdahei",
   "abecalejadeBnabbyaDsbfaceBibbegbEiadeeacejabegaheIhacecadeCeabebajebabecaieganeBwaDgeBwabebafe",
   "babefabeBoajemaceBgaeecacebadeCeabebacedabebadeCgaiecafeFtadebanebaheeabegabedaceHqaCneBBraCae",
   "ENjaeeFkabeDsaBgeViaeeEdaeeBSQcaeebakeBgaceDcaceKmabedabeeabezacefaeeqaBybbcDdakesasenabeBmaie",
   "zaleBuadeBwabecaeecaceBnabeCpagecacecaledabeiabeBvabeBzabebadecacefacebabeBqaceialeIuabecabeea",
   "deBDZqaFseXyaBleBKqaFbeDsabeFtakeCMbapeBoaieEyafbbdbabdbacdcabcfdebbcfbbddbbdcabdgeebbdFoabbbd",
   "bbdddbbdcbbdbbcdbbidqaedcbMzabcBhbbdbbmeCfafeMfacevabdcbbakbBqageBwadbbdrbbaledbbdBbaebcdmbeeB",
   "qabbbacbddbabbcdcbbdcbbabbcdbbeabdbbvcBhabeCcapeBpabecacekadeBxaeecacehaoeBwadeBkafebajeCjabem",
   "aceCaajekaeecabeDradecabebacegabecaCleDrabedaneqaceCfacedabeBlaBaeChahemabebabebabeoaBfeCeaiec",
   "adebabexabeDgagebabeeacebaceJeageeacebaceBbaBkeBzaiecabebaceEcabebabecagebabeDxabebabecaeebaje",
   "JvajebaceJwacebabeeabeFoaieeabeBgakeBoagecaeeiajebagecadeBuanebaceHqabebadebabeHtaoebabeDeaxeb",
   "ahebacebaCxeBxavebajeCmadecabebabeNjacelaceCaaiecabebabexaDieHUmabegazeQYoamedadeDSaafeChaheBO",
   "iabeClaeeDdameBDAzaceGYzaDceUpaderaiecaheBeaeeFsadeCYdaCdeeaByeiabeoabewaBRheJwaJweBwaheOlaseB",
   "saeeToaeeJuaceJjabecabehacefajeRyaDeeBibmeBTIAia"]

/-- The runs of joining letters. -/
def joiningRuns : List (Nat × Nat) :=
  Text.Packed.pairs (Text.Packed.numbers joiningTable)

/-- On which sides a character joins its neighbours. -/
def joining (c : Char) : Joining :=
  match Text.Packed.valueOf joiningRuns c with
  | 1 => .onBothSides
  | 2 => .onLeft
  | 3 => .onRight
  | 4 => .through
  | _ => .never

/-- Whether the next character that is no mark joins, on a side or on both. -/
def joinsNext (side : Joining) (cs : List Char) : Bool :=
  ((cs.dropWhile (joining · == .through)).head?).any fun c =>
    joining c == side || joining c == .onBothSides

/-- Whether joiners make a difference wherever they stand in text behind characters, last first:
behind a sign that takes a vowel away, or, for the one that parts letters, between letters that
would join. -/
def joinersMatter (before : List Char) : List Char → Bool
  | [] => true
  | c :: rest =>
    let matters :=
      if c = '\u200c' then
        before.head?.any isVirama || (joinsNext .onLeft before && joinsNext .onRight rest)
      else if c = '\u200d' then before.head?.any isVirama
      else true
    matters && joinersMatter (c :: before) rest

end SchemaAtlas.DomainName
