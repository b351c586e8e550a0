import Parlance.Text.Intervals
import Parlance.Text.RunTable

/-!
# Scripts

Every character has one script, its own writing system or a shared one (`Zyyy`, `Zinh`); some characters
are in use in a list of scripts, their extensions. Scripts are told by their codes of four letters. The
tables hold the characters that patterns know.
-/

namespace Parlance.Text.Script

/-- The scripts: codes and names. -/
def names : List (String × String) :=
  [("Adlm", "Adlam"), ("Aghb", "Caucasian_Albanian"), ("Ahom", "Ahom"), ("Arab", "Arabic"),
   ("Armi", "Imperial_Aramaic"), ("Armn", "Armenian"), ("Avst", "Avestan"), ("Bali", "Balinese"),
   ("Bamu", "Bamum"), ("Bass", "Bassa_Vah"), ("Batk", "Batak"), ("Beng", "Bengali"),
   ("Bhks", "Bhaiksuki"), ("Bopo", "Bopomofo"), ("Brah", "Brahmi"), ("Brai", "Braille"),
   ("Bugi", "Buginese"), ("Buhd", "Buhid"), ("Cakm", "Chakma"), ("Cans", "Canadian_Aboriginal"),
   ("Cari", "Carian"), ("Cham", "Cham"), ("Cher", "Cherokee"), ("Chrs", "Chorasmian"),
   ("Copt", "Coptic"), ("Cpmn", "Cypro_Minoan"), ("Cprt", "Cypriot"), ("Cyrl", "Cyrillic"),
   ("Deva", "Devanagari"), ("Diak", "Dives_Akuru"), ("Dogr", "Dogra"), ("Dsrt", "Deseret"),
   ("Dupl", "Duployan"), ("Egyp", "Egyptian_Hieroglyphs"), ("Elba", "Elbasan"),
   ("Elym", "Elymaic"), ("Ethi", "Ethiopic"), ("Geor", "Georgian"), ("Glag", "Glagolitic"),
   ("Gong", "Gunjala_Gondi"), ("Gonm", "Masaram_Gondi"), ("Goth", "Gothic"), ("Gran", "Grantha"),
   ("Grek", "Greek"), ("Gujr", "Gujarati"), ("Guru", "Gurmukhi"), ("Hang", "Hangul"),
   ("Hani", "Han"), ("Hano", "Hanunoo"), ("Hatr", "Hatran"), ("Hebr", "Hebrew"),
   ("Hira", "Hiragana"), ("Hluw", "Anatolian_Hieroglyphs"), ("Hmng", "Pahawh_Hmong"),
   ("Hmnp", "Nyiakeng_Puachue_Hmong"), ("Hung", "Old_Hungarian"), ("Ital", "Old_Italic"),
   ("Java", "Javanese"), ("Kali", "Kayah_Li"), ("Kana", "Katakana"), ("Kawi", "Kawi"),
   ("Khar", "Kharoshthi"), ("Khmr", "Khmer"), ("Khoj", "Khojki"),
   ("Kits", "Khitan_Small_Script"), ("Knda", "Kannada"), ("Kthi", "Kaithi"),
   ("Lana", "Tai_Tham"), ("Laoo", "Lao"), ("Latn", "Latin"), ("Lepc", "Lepcha"),
   ("Limb", "Limbu"), ("Lina", "Linear_A"), ("Linb", "Linear_B"), ("Lisu", "Lisu"),
   ("Lyci", "Lycian"), ("Lydi", "Lydian"), ("Mahj", "Mahajani"), ("Maka", "Makasar"),
   ("Mand", "Mandaic"), ("Mani", "Manichaean"), ("Marc", "Marchen"), ("Medf", "Medefaidrin"),
   ("Mend", "Mende_Kikakui"), ("Merc", "Meroitic_Cursive"), ("Mero", "Meroitic_Hieroglyphs"),
   ("Mlym", "Malayalam"), ("Modi", "Modi"), ("Mong", "Mongolian"), ("Mroo", "Mro"),
   ("Mtei", "Meetei_Mayek"), ("Mult", "Multani"), ("Mymr", "Myanmar"), ("Nagm", "Nag_Mundari"),
   ("Nand", "Nandinagari"), ("Narb", "Old_North_Arabian"), ("Nbat", "Nabataean"),
   ("Newa", "Newa"), ("Nkoo", "Nko"), ("Nshu", "Nushu"), ("Ogam", "Ogham"), ("Olck", "Ol_Chiki"),
   ("Orkh", "Old_Turkic"), ("Orya", "Oriya"), ("Osge", "Osage"), ("Osma", "Osmanya"),
   ("Ougr", "Old_Uyghur"), ("Palm", "Palmyrene"), ("Pauc", "Pau_Cin_Hau"),
   ("Perm", "Old_Permic"), ("Phag", "Phags_Pa"), ("Phli", "Inscriptional_Pahlavi"),
   ("Phlp", "Psalter_Pahlavi"), ("Phnx", "Phoenician"), ("Plrd", "Miao"),
   ("Prti", "Inscriptional_Parthian"), ("Rjng", "Rejang"), ("Rohg", "Hanifi_Rohingya"),
   ("Runr", "Runic"), ("Samr", "Samaritan"), ("Sarb", "Old_South_Arabian"),
   ("Saur", "Saurashtra"), ("Sgnw", "SignWriting"), ("Shaw", "Shavian"), ("Shrd", "Sharada"),
   ("Sidd", "Siddham"), ("Sind", "Khudawadi"), ("Sinh", "Sinhala"), ("Sogd", "Sogdian"),
   ("Sogo", "Old_Sogdian"), ("Sora", "Sora_Sompeng"), ("Soyo", "Soyombo"), ("Sund", "Sundanese"),
   ("Sylo", "Syloti_Nagri"), ("Syrc", "Syriac"), ("Tagb", "Tagbanwa"), ("Takr", "Takri"),
   ("Tale", "Tai_Le"), ("Talu", "New_Tai_Lue"), ("Taml", "Tamil"), ("Tang", "Tangut"),
   ("Tavt", "Tai_Viet"), ("Telu", "Telugu"), ("Tfng", "Tifinagh"), ("Tglg", "Tagalog"),
   ("Thaa", "Thaana"), ("Thai", "Thai"), ("Tibt", "Tibetan"), ("Tirh", "Tirhuta"),
   ("Tnsa", "Tangsa"), ("Toto", "Toto"), ("Ugar", "Ugaritic"), ("Vaii", "Vai"),
   ("Vith", "Vithkuqi"), ("Wara", "Warang_Citi"), ("Wcho", "Wancho"), ("Xpeo", "Old_Persian"),
   ("Xsux", "Cuneiform"), ("Yezi", "Yezidi"), ("Yiii", "Yi"), ("Zanb", "Zanabazar_Square"),
   ("Zinh", "Inherited"), ("Zyyy", "Common"), ("Gara", "Garay"), ("Gukh", "Gurung_Khema"),
   ("Krai", "Kirat_Rai"), ("Onao", "Ol_Onal"), ("Sunu", "Sunuwar"), ("Todr", "Todhri"),
   ("Tutg", "Tulu_Tigalari")]

/-- Run lengths with the codes of scripts, from code point 0 upwards; `Zzzz` stands for none. -/
def runLengths : List String :=
  ["65Zyyy26Latn6Zyyy26Latn47Zyyy1Latn15Zyyy1Latn5Zyyy23Latn1Zyyy31Latn1Zyyy449Latn39Zyyy5Latn5Zyy",
   "y2Bopo20Zyyy112Zinh4Grek1Zyyy3Grek2Zzzz4Grek1Zyyy1Grek4Zzzz1Grek1Zyyy1Grek1Zyyy3Grek1Zzzz1Grek",
   "1Zzzz20Grek1Zzzz63Grek14Copt16Grek133Cyrl2Zinh169Cyrl1Zzzz38Armn2Zzzz50Armn2Zzzz3Armn1Zzzz55He",
   "br8Zzzz27Hebr4Zzzz6Hebr11Zzzz5Arab1Zyyy6Arab1Zyyy14Arab1Zyyy3Arab1Zyyy32Arab1Zyyy10Arab11Zinh2",
   "6Arab1Zinh108Arab1Zyyy34Arab14Syrc1Zzzz60Syrc2Zzzz3Syrc48Arab50Thaa14Zzzz59Nkoo2Zzzz3Nkoo46Sam",
   "r2Zzzz15Samr1Zzzz28Mand2Zzzz1Mand1Zzzz11Syrc5Zzzz31Arab1Zzzz2Arab5Zzzz75Arab1Zyyy29Arab81Deva4",
   "Zinh15Deva2Zyyy26Deva4Beng1Zzzz8Beng2Zzzz2Beng2Zzzz22Beng1Zzzz7Beng1Zzzz1Beng3Zzzz4Beng2Zzzz9B",
   "eng2Zzzz2Beng2Zzzz4Beng8Zzzz1Beng4Zzzz2Beng1Zzzz5Beng2Zzzz25Beng2Zzzz3Guru1Zzzz6Guru4Zzzz2Guru",
   "2Zzzz22Guru1Zzzz7Guru1Zzzz2Guru1Zzzz2Guru1Zzzz2Guru2Zzzz1Guru1Zzzz5Guru4Zzzz2Guru2Zzzz3Guru3Zz",
   "zz1Guru7Zzzz4Guru1Zzzz1Guru7Zzzz17Guru10Zzzz3Gujr1Zzzz9Gujr1Zzzz3Gujr1Zzzz22Gujr1Zzzz7Gujr1Zzz",
   "z2Gujr1Zzzz5Gujr2Zzzz10Gujr1Zzzz3Gujr1Zzzz3Gujr2Zzzz1Gujr15Zzzz4Gujr2Zzzz12Gujr7Zzzz7Gujr1Zzzz",
   "3Orya1Zzzz8Orya2Zzzz2Orya2Zzzz22Orya1Zzzz7Orya1Zzzz2Orya1Zzzz5Orya2Zzzz9Orya2Zzzz2Orya2Zzzz3Or",
   "ya7Zzzz3Orya4Zzzz2Orya1Zzzz5Orya2Zzzz18Orya10Zzzz2Taml1Zzzz6Taml3Zzzz3Taml1Zzzz4Taml3Zzzz2Taml",
   "1Zzzz1Taml1Zzzz2Taml3Zzzz2Taml3Zzzz3Taml3Zzzz12Taml4Zzzz5Taml3Zzzz3Taml1Zzzz4Taml2Zzzz1Taml6Zz",
   "zz1Taml14Zzzz21Taml5Zzzz13Telu1Zzzz3Telu1Zzzz23Telu1Zzzz16Telu2Zzzz9Telu1Zzzz3Telu1Zzzz4Telu7Z",
   "zzz2Telu1Zzzz3Telu2Zzzz1Telu2Zzzz4Telu2Zzzz10Telu7Zzzz9Telu13Knda1Zzzz3Knda1Zzzz23Knda1Zzzz10K",
   "nda1Zzzz5Knda2Zzzz9Knda1Zzzz3Knda1Zzzz4Knda7Zzzz2Knda6Zzzz2Knda1Zzzz4Knda2Zzzz10Knda1Zzzz3Knda",
   "12Zzzz13Mlym1Zzzz3Mlym1Zzzz51Mlym1Zzzz3Mlym1Zzzz6Mlym4Zzzz16Mlym2Zzzz26Mlym1Zzzz3Sinh1Zzzz18Si",
   "nh3Zzzz24Sinh1Zzzz9Sinh1Zzzz1Sinh2Zzzz7Sinh3Zzzz1Sinh4Zzzz6Sinh1Zzzz1Sinh1Zzzz8Sinh6Zzzz10Sinh",
   "2Zzzz3Sinh12Zzzz58Thai4Zzzz1Zyyy28Thai37Zzzz2Laoo1Zzzz1Laoo1Zzzz5Laoo1Zzzz24Laoo1Zzzz1Laoo1Zzz",
   "z23Laoo2Zzzz5Laoo1Zzzz1Laoo1Zzzz7Laoo1Zzzz10Laoo2Zzzz4Laoo32Zzzz72Tibt1Zzzz36Tibt4Zzzz39Tibt1Z",
   "zzz36Tibt1Zzzz15Tibt1Zzzz7Tibt4Zyyy2Tibt37Zzzz160Mymr38Geor1Zzzz1Geor5Zzzz1Geor2Zzzz43Geor1Zyy",
   "y4Geor256Hang73Ethi1Zzzz4Ethi2Zzzz7Ethi1Zzzz1Ethi1Zzzz4Ethi2Zzzz41Ethi1Zzzz4Ethi2Zzzz33Ethi1Zz",
   "zz4Ethi2Zzzz7Ethi1Zzzz1Ethi1Zzzz4Ethi2Zzzz15Ethi1Zzzz57Ethi1Zzzz4Ethi2Zzzz67Ethi2Zzzz32Ethi3Zz",
   "zz26Ethi6Zzzz86Cher2Zzzz6Cher2Zzzz640Cans29Ogam3Zzzz75Runr3Zyyy11Runr7Zzzz22Tglg9Zzzz1Tglg21Ha",
   "no2Zyyy9Zzzz20Buhd12Zzzz13Tagb1Zzzz3Tagb1Zzzz2Tagb12Zzzz94Khmr2Zzzz10Khmr6Zzzz10Khmr6Zzzz2Mong",
   "2Zyyy1Mong1Zyyy20Mong6Zzzz89Mong7Zzzz43Mong5Zzzz70Cans10Zzzz31Limb1Zzzz12Limb4Zzzz12Limb4Zzzz1",
   "Limb3Zzzz12Limb30Tale2Zzzz5Tale11Zzzz44Talu4Zzzz26Talu6Zzzz11Talu3Zzzz2Talu32Khmr28Bugi2Zzzz2B",
   "ugi63Lana1Zzzz29Lana2Zzzz11Lana6Zzzz10Lana6Zzzz14Lana2Zzzz31Zinh49Zzzz77Bali1Zzzz50Bali64Sund5",
   "2Batk8Zzzz4Batk56Lepc3Zzzz15Lepc3Zzzz3Lepc48Olck11Cyrl5Zzzz43Geor2Zzzz3Geor8Sund8Zzzz3Zinh1Zyy",
   "y13Zinh1Zyyy7Zinh4Zyyy1Zinh6Zyyy1Zinh3Zyyy2Zinh1Zyyy5Zzzz38Latn5Grek1Cyrl49Latn5Grek4Latn5Grek",
   "13Latn1Cyrl70Latn1Grek64Zinh256Latn22Grek2Zzzz6Grek2Zzzz38Grek2Zzzz6Grek2Zzzz8Grek1Zzzz1Grek1Z",
   "zzz1Grek1Zzzz1Grek1Zzzz31Grek2Zzzz53Grek1Zzzz15Grek1Zzzz14Grek2Zzzz6Grek1Zzzz19Grek2Zzzz3Grek1",
   "Zzzz9Grek1Zzzz12Zyyy2Zinh87Zyyy1Zzzz11Zyyy1Latn2Zzzz11Zyyy1Latn15Zyyy1Zzzz13Latn3Zzzz33Zyyy15Z",
   "zzz33Zinh15Zzzz38Zyyy1Grek3Zyyy2Latn6Zyyy1Latn27Zyyy1Latn17Zyyy41Latn3Zyyy4Zzzz666Zyyy22Zzzz11",
   "Zyyy21Zzzz928Zyyy256Brai628Zyyy2Zzzz32Zyyy1Zzzz105Zyyy96Glag32Latn116Copt5Zzzz7Copt38Geor1Zzzz",
   "1Geor5Zzzz1Geor2Zzzz56Tfng7Zzzz2Tfng14Zzzz1Tfng23Ethi9Zzzz7Ethi1Zzzz7Ethi1Zzzz7Ethi1Zzzz7Ethi1",
   "Zzzz7Ethi1Zzzz7Ethi1Zzzz7Ethi1Zzzz7Ethi1Zzzz32Cyrl94Zyyy34Zzzz26Hani1Zzzz89Hani12Zzzz214Hani26",
   "Zzzz21Zyyy1Hani1Zyyy1Hani25Zyyy9Hani4Zinh2Hang8Zyyy4Hani4Zyyy1Zzzz86Hira2Zzzz2Zinh2Zyyy3Hira1Z",
   "yyy90Kana2Zyyy3Kana5Zzzz43Bopo1Zzzz94Hang1Zzzz16Zyyy32Bopo38Zyyy9Zzzz1Zyyy16Kana31Hang1Zzzz64Z",
   "yyy31Hang81Zyyy47Kana1Zyyy88Kana168Zyyy6592Hani64Zyyy20992Hani1165Yiii3Zzzz55Yiii9Zzzz48Lisu30",
   "0Vaii20Zzzz96Cyrl88Bamu8Zzzz34Zyyy102Latn3Zyyy67Latn2Zzzz2Latn1Zzzz1Latn1Zzzz8Latn21Zzzz14Latn",
   "45Sylo3Zzzz10Zyyy6Zzzz56Phag8Zzzz70Saur8Zzzz12Saur6Zzzz32Deva46Kali1Zyyy1Kali36Rjng11Zzzz1Rjng",
   "29Hang3Zzzz78Java1Zzzz1Zyyy10Java4Zzzz2Java31Mymr1Zzzz55Cham9Zzzz14Cham2Zzzz10Cham2Zzzz4Cham32",
   "Mymr67Tavt24Zzzz5Tavt23Mtei10Zzzz6Ethi2Zzzz6Ethi2Zzzz6Ethi9Zzzz7Ethi1Zzzz7Ethi1Zzzz43Latn1Zyyy",
   "9Latn1Grek4Latn2Zyyy4Zzzz80Cher46Mtei2Zzzz10Mtei6Zzzz11172Hang12Zzzz23Hang4Zzzz49Hang8452Zzzz3",
   "66Hani2Zzzz106Hani38Zzzz7Latn12Zzzz5Armn5Zzzz26Hebr1Zzzz5Hebr1Zzzz1Hebr1Zzzz2Hebr1Zzzz2Hebr1Zz",
   "zz10Hebr115Arab16Zzzz363Arab2Zyyy80Arab2Zzzz54Arab7Zzzz1Arab32Zzzz16Arab16Zinh10Zyyy6Zzzz14Zin",
   "h2Cyrl35Zyyy1Zzzz19Zyyy1Zzzz4Zyyy4Zzzz5Arab1Zzzz135Arab2Zzzz1Zyyy1Zzzz32Zyyy26Latn6Zyyy26Latn1",
   "1Zyyy10Kana1Zyyy45Kana2Zyyy31Hang3Zzzz6Hang2Zzzz6Hang2Zzzz6Hang2Zzzz3Hang3Zzzz7Zyyy1Zzzz7Zyyy1",
   "0Zzzz5Zyyy2Zzzz12Linb1Zzzz26Linb1Zzzz19Linb1Zzzz2Linb1Zzzz15Linb2Zzzz14Linb34Zzzz123Linb5Zzzz3",
   "Zyyy4Zzzz45Zyyy3Zzzz9Zyyy79Grek1Zzzz13Zyyy3Zzzz1Grek47Zzzz45Zyyy1Zinh130Zzzz29Lyci3Zzzz49Cari1",
   "5Zzzz1Zinh27Zyyy4Zzzz36Ital9Zzzz3Ital27Goth5Zzzz43Perm5Zzzz30Ugar1Zzzz1Ugar36Xpeo4Zzzz14Xpeo42",
   "Zzzz80Dsrt48Shaw30Osma2Zzzz10Osma6Zzzz36Osge4Zzzz36Osge4Zzzz40Elba8Zzzz52Aghb11Zzzz1Aghb11Vith",
   "1Zzzz15Vith1Zzzz7Vith1Zzzz2Vith1Zzzz11Vith1Zzzz15Vith1Zzzz7Vith1Zzzz2Vith3Zzzz52Todr12Zzzz311L",
   "ina9Zzzz22Lina10Zzzz8Lina24Zzzz6Latn1Zzzz42Latn1Zzzz9Latn69Zzzz6Cprt2Zzzz1Cprt1Zzzz44Cprt1Zzzz",
   "2Cprt3Zzzz1Cprt2Zzzz1Cprt22Armi1Zzzz9Armi32Palm31Nbat8Zzzz9Nbat48Zzzz19Hatr1Zzzz2Hatr5Zzzz5Hat",
   "r28Phnx3Zzzz1Phnx26Lydi5Zzzz1Lydi64Zzzz32Mero24Merc4Zzzz20Merc2Zzzz46Merc4Khar1Zzzz2Khar5Zzzz8",
   "Khar1Zzzz3Khar1Zzzz29Khar2Zzzz3Khar4Zzzz10Khar7Zzzz9Khar7Zzzz32Sarb32Narb32Zzzz39Mani4Zzzz12Ma",
   "ni9Zzzz54Avst3Zzzz7Avst22Prti2Zzzz8Prti19Phli5Zzzz8Phli18Phlp7Zzzz4Phlp12Zzzz7Phlp80Zzzz73Orkh",
   "55Zzzz51Hung13Zzzz51Hung7Zzzz6Hung40Rohg8Zzzz10Rohg6Zzzz38Gara3Zzzz29Gara8Zzzz2Gara208Zzzz31Ar",
   "ab1Zzzz42Yezi1Zzzz3Yezi2Zzzz2Yezi16Zzzz3Arab55Zzzz4Arab40Sogo8Zzzz42Sogd22Zzzz26Ougr38Zzzz28Ch",
   "rs20Zzzz23Elym9Zzzz78Brah4Zzzz36Brah9Zzzz1Brah67Kthi10Zzzz1Kthi2Zzzz25Sora7Zzzz10Sora6Zzzz53Ca",
   "km1Zzzz18Cakm8Zzzz39Mahj9Zzzz96Shrd1Zzzz20Sinh11Zzzz18Khoj1Zzzz47Khoj62Zzzz7Mult1Zzzz1Mult1Zzz",
   "z4Mult1Zzzz15Mult1Zzzz11Mult6Zzzz59Sind5Zzzz10Sind6Zzzz4Gran1Zzzz8Gran2Zzzz2Gran2Zzzz22Gran1Zz",
   "zz7Gran1Zzzz2Gran1Zzzz5Gran1Zzzz1Zinh9Gran2Zzzz2Gran2Zzzz3Gran2Zzzz1Gran6Zzzz1Gran5Zzzz7Gran2Z",
   "zzz7Gran3Zzzz5Gran11Zzzz10Tutg1Zzzz1Tutg2Zzzz1Tutg1Zzzz38Tutg1Zzzz10Tutg1Zzzz1Tutg2Zzzz1Tutg1Z",
   "zzz4Tutg1Zzzz10Tutg1Zzzz2Tutg8Zzzz2Tutg29Zzzz92Newa1Zzzz5Newa30Zzzz72Tirh8Zzzz10Tirh166Zzzz54S",
   "idd2Zzzz38Sidd34Zzzz69Modi11Zzzz10Modi6Zzzz13Mong19Zzzz58Takr6Zzzz10Takr6Zzzz20Mymr28Zzzz27Aho",
   "m2Zzzz15Ahom4Zzzz23Ahom185Zzzz60Dogr100Zzzz83Wara12Zzzz1Wara7Diak2Zzzz1Diak2Zzzz8Diak1Zzzz2Dia",
   "k1Zzzz30Diak1Zzzz2Diak2Zzzz12Diak9Zzzz10Diak70Zzzz8Nand2Zzzz46Nand2Zzzz11Nand27Zzzz72Zanb8Zzzz",
   "83Soyo13Zzzz16Cans57Pauc7Zzzz10Deva182Zzzz34Sunu14Zzzz10Sunu6Zzzz9Bhks1Zzzz45Bhks1Zzzz14Bhks10",
   "Zzzz29Bhks3Zzzz32Marc2Zzzz22Marc1Zzzz14Marc73Zzzz7Gonm1Zzzz2Gonm1Zzzz44Gonm3Zzzz1Gonm1Zzzz2Gon",
   "m1Zzzz9Gonm8Zzzz10Gonm6Zzzz6Gong1Zzzz2Gong1Zzzz37Gong1Zzzz2Gong1Zzzz6Gong7Zzzz10Gong310Zzzz25M",
   "aka7Zzzz17Kawi1Zzzz41Kawi3Zzzz29Kawi85Zzzz1Lisu15Zzzz50Taml13Zzzz1Taml922Xsux102Zzzz111Xsux1Zz",
   "zz5Xsux11Zzzz196Xsux2636Zzzz99Cpmn13Zzzz1110Egyp10Zzzz3995Egyp5Zzzz583Hluw6841Zzzz58Gukh1734Zz",
   "zz569Bamu7Zzzz31Mroo1Zzzz10Mroo4Zzzz2Mroo79Tnsa1Zzzz10Tnsa6Zzzz30Bass2Zzzz6Bass10Zzzz70Hmng10Z",
   "zzz10Hmng1Zzzz7Hmng1Zzzz21Hmng5Zzzz19Hmng432Zzzz58Krai198Zzzz91Medf101Zzzz75Plrd4Zzzz57Plrd7Zz",
   "zz17Plrd64Zzzz1Tang1Nshu2Hani1Kits11Zzzz2Hani14Zzzz6136Tang8Zzzz768Tang470Kits41Zzzz1Kits9Tang",
   "8935Zzzz4Kana1Zzzz7Kana1Zzzz2Kana1Zzzz1Kana287Hira3Kana15Zzzz1Hira29Zzzz3Hira2Zzzz1Kana14Zzzz4",
   "Kana8Zzzz396Nshu2308Zzzz107Dupl5Zzzz13Dupl3Zzzz9Dupl7Zzzz10Dupl2Zzzz4Dupl4Zyyy3932Zzzz250Zyyy6",
   "Zzzz436Zyyy76Zzzz46Zinh2Zzzz23Zinh9Zzzz116Zyyy60Zzzz246Zyyy10Zzzz39Zyyy2Zzzz62Zyyy3Zinh17Zyyy8",
   "Zinh2Zyyy7Zinh30Zyyy4Zinh61Zyyy21Zzzz70Grek122Zzzz20Zyyy12Zzzz20Zyyy12Zzzz87Zyyy9Zzzz25Zyyy135",
   "Zzzz85Zyyy1Zzzz71Zyyy1Zzzz2Zyyy2Zzzz1Zyyy2Zzzz2Zyyy2Zzzz4Zyyy1Zzzz12Zyyy1Zzzz1Zyyy1Zzzz7Zyyy1Z",
   "zzz65Zyyy1Zzzz4Zyyy2Zzzz8Zyyy1Zzzz7Zyyy1Zzzz28Zyyy1Zzzz4Zyyy1Zzzz5Zyyy1Zzzz1Zyyy3Zzzz7Zyyy1Zzz",
   "z340Zyyy2Zzzz292Zyyy2Zzzz50Zyyy652Sgnw15Zzzz5Sgnw1Zzzz15Sgnw1104Zzzz31Latn6Zzzz6Latn213Zzzz7Gl",
   "ag1Zzzz17Glag2Zzzz7Glag1Zzzz2Glag1Zzzz5Glag5Zzzz62Cyrl33Zzzz1Cyrl112Zzzz45Hmnp3Zzzz14Hmnp2Zzzz",
   "10Hmnp4Zzzz2Hmnp320Zzzz31Toto17Zzzz58Wcho5Zzzz1Wcho464Zzzz42Nagm214Zzzz43Onao4Zzzz1Onao480Zzzz",
   "7Ethi1Zzzz4Ethi1Zzzz2Ethi1Zzzz15Ethi1Zzzz197Mend2Zzzz16Mend41Zzzz76Adlm4Zzzz10Adlm4Zzzz2Adlm78",
   "5Zzzz68Zyyy76Zzzz61Zyyy194Zzzz4Arab1Zzzz27Arab1Zzzz2Arab1Zzzz1Arab2Zzzz1Arab1Zzzz10Arab1Zzzz4A",
   "rab1Zzzz1Arab1Zzzz1Arab6Zzzz1Arab4Zzzz1Arab1Zzzz1Arab1Zzzz1Arab1Zzzz3Arab1Zzzz2Arab1Zzzz1Arab2",
   "Zzzz1Arab1Zzzz1Arab1Zzzz1Arab1Zzzz1Arab1Zzzz1Arab1Zzzz2Arab1Zzzz1Arab2Zzzz4Arab1Zzzz7Arab1Zzzz",
   "4Arab1Zzzz4Arab1Zzzz1Arab1Zzzz10Arab1Zzzz17Arab5Zzzz3Arab1Zzzz5Arab1Zzzz17Arab52Zzzz2Arab270Zz",
   "zz44Zyyy4Zzzz100Zyyy12Zzzz15Zyyy2Zzzz15Zyyy1Zzzz15Zyyy1Zzzz37Zyyy10Zzzz174Zyyy56Zzzz26Zyyy1Hir",
   "a2Zyyy13Zzzz44Zyyy4Zzzz9Zyyy7Zzzz2Zyyy14Zzzz6Zyyy154Zzzz984Zyyy4Zzzz17Zyyy3Zzzz13Zyyy3Zzzz119Z",
   "yyy4Zzzz95Zyyy6Zzzz12Zyyy4Zzzz1Zyyy15Zzzz12Zyyy4Zzzz56Zyyy8Zzzz10Zyyy6Zzzz40Zyyy8Zzzz30Zyyy2Zz",
   "zz12Zyyy4Zzzz2Zyyy62Zzzz340Zyyy12Zzzz14Zyyy2Zzzz13Zyyy3Zzzz10Zyyy5Zzzz56Zyyy7Zzzz15Zyyy2Zzzz11",
   "Zyyy6Zzzz9Zyyy7Zzzz147Zyyy1Zzzz102Zyyy1030Zzzz42720Hani32Zzzz4154Hani6Zzzz222Hani2Zzzz5762Hani",
   "14Zzzz7473Hani15Zzzz622Hani2466Zzzz542Hani1506Zzzz4939Hani5Zzzz4192Hani711761Zzzz1Zyyy30Zzzz96",
   "Zyyy128Zzzz240Zinh196112Zzzz"]

/-- The script of each code point. -/
def table : RunTable String := .ofLines id runLengths

/-- The characters of a script. -/
def members (code : String) : Intervals :=
  table.intervals Intervals.lastPoint (· == code)

/-- The characters that are in use in several scripts or in another than their own, by their lists of
scripts. -/
def extensions : List (List String × List String) :=
  [(["Adlm Arab"], ["204f"]),
   (["Adlm Arab Gara Nkoo Rohg Syrc Thaa Yezi"], ["61f"]),
   (["Adlm Arab Hung"], ["2e41"]),
   (["Adlm Arab Mand Mani Ougr Phlp Rohg Sogd Syrc"], ["640"]),
   (["Aghb Cher Copt Cyrl Goth Grek Latn Osge Syrc Tfng Todr"], ["304"]),
   (["Aghb Cher Goth Latn Sunu Syrc Thai"], ["331"]),
   (["Aghb Latn Todr"], ["35e"]),
   (["Arab Copt"], ["102e0-102fb"]),
   (["Arab Gara Nkoo Rohg Syrc Thaa Yezi"], ["60c 61b"]),
   (["Arab Nkoo"], ["fd3e-fd3f"]),
   (["Arab Rohg"], ["6d4"]),
   (["Arab Syrc"], ["64b-655 670"]),
   (["Arab Syrc Thaa"], ["61c"]),
   (["Arab Thaa"], ["fdf2 fdfd"]),
   (["Arab Thaa Yezi"], ["660-669"]),
   (["Armn Cyrl Dupl Goth Grek Hebr Latn Perm Syrc Tale Tfng"], ["308"]),
   (["Armn Geor Glag"], ["589"]),
   (["Avst Cari Copt Dupl Elba Geor Glag Gong Goth Grek Hani Latn Lydi Mahj",
     "Perm Shaw"],
    ["b7"]),
   (["Avst Cari Geor Hung Kthi Lydi Samr"], ["2e31"]),
   (["Avst Orkh"], ["2e30"]),
   (["Beng"], ["1cf7"]),
   (["Beng Cakm Sylo"], ["9e6-9ef"]),
   (["Beng Cyrl Deva Latn Lisu Thai Toto"], ["2bc"]),
   (["Beng Deva"], ["1ce1 1cf5-1cf6"]),
   (["Beng Deva Dogr Gong Gonm Gran Gujr Gukh Guru Knda Limb Mahj Mlym Nand",
     "Onao Orya Sind Sinh Sylo Takr Taml Telu Tirh"],
    ["965"]),
   (["Beng Deva Dogr Gong Gonm Gran Gujr Guru Knda Mahj Mlym Nand Onao Orya",
     "Sind Sinh Sylo Takr Taml Telu Tirh"],
    ["964"]),
   (["Beng Deva Gran Gujr Guru Knda Latn Mlym Nand Newa Orya Shrd Taml Telu",
     "Tirh"],
    ["951"]),
   (["Beng Deva Gran Gujr Guru Knda Latn Mlym Newa Orya Taml Telu Tirh"], ["952"]),
   (["Beng Deva Gran Knda"], ["1cd0 1cd2"]),
   (["Beng Deva Gran Knda Mlym Nand Orya Sinh Telu Tirh Tutg"], ["1cf2"]),
   (["Beng Deva Newa Shrd"], ["1ced"]),
   (["Beng Deva Newa Telu"], ["1cd8"]),
   (["Beng Deva Newa Telu Tirh"], ["1cd5"]),
   (["Beng Deva Shrd"], ["1cea"]),
   (["Beng Deva Telu"], ["1cd6"]),
   (["Beng Deva Tutg"], ["a8f1"]),
   (["Bopo Hang Hani Hira Kana"], ["3003 3013 301c-301f 3030 3037 fe45-fe46"]),
   (["Bopo Hang Hani Hira Kana Lisu Mong Tibt Yiii"], ["300a-300b"]),
   (["Bopo Hang Hani Hira Kana Mong Phag Yiii"], ["3002"]),
   (["Bopo Hang Hani Hira Kana Mong Tibt Yiii"], ["3008-3009"]),
   (["Bopo Hang Hani Hira Kana Mong Yiii"], ["3001"]),
   (["Bopo Hang Hani Hira Kana Yiii"], ["300c-3011 3014-301b 30fb ff61-ff65"]),
   (["Bopo Hani"], ["302a-302d"]),
   (["Bopo Latn"], ["2c7 2c9-2cb 2d9"]),
   (["Bugi Java"], ["a9cf"]),
   (["Buhd Hano Tagb Tglg"], ["1735-1736"]),
   (["Cakm Mymr Tale"], ["1040-1049"]),
   (["Cari Geor Glag Hung Lyci Orkh"], ["205a"]),
   (["Cari Grek Hung Mero"], ["205d"]),
   (["Cher Copt Cyrl Grek Latn Perm Sunu Tale"], ["300"]),
   (["Cher Cyrl Grek Latn Osge Sunu Tale Todr"], ["301"]),
   (["Cher Cyrl Latn Osge"], ["30b"]),
   (["Cher Cyrl Latn Tfng"], ["302"]),
   (["Cher Dupl Kana Latn Syrc Tfng"], ["323"]),
   (["Cher Dupl Latn Syrc"], ["324"]),
   (["Cher Latn Syrc"], ["330"]),
   (["Cher Latn Tale"], ["30c"]),
   (["Copt Dupl Hebr Latn Perm Syrc Tale Tfng Todr"], ["307"]),
   (["Copt Elba Glag Goth Kana Latn"], ["305"]),
   (["Copt Grek"], ["374-375"]),
   (["Copt Latn"], ["2e17"]),
   (["Cpmn Cprt Linb"], ["10100-10101"]),
   (["Cprt Lina Linb"], ["10107-10133"]),
   (["Cprt Linb"], ["10102 10137-1013f"]),
   (["Cyrl Glag"], ["484 487 2e43 a66f"]),
   (["Cyrl Grek Latn Perm Tfng"], ["306"]),
   (["Cyrl Latn"], ["485-486"]),
   (["Cyrl Latn Syrc"], ["1df8"]),
   (["Cyrl Latn Todr"], ["311"]),
   (["Cyrl Perm"], ["483"]),
   (["Deva"], ["1cd1 1cd4 1cdb 1cde-1cdf 1ce3-1ce8 1cec 1cee-1cf1"]),
   (["Deva Dogr Gujr Guru Khoj Knda Kthi Mahj Mlym Modi Nand Shrd Sind Takr",
     "Tirh Tutg"],
    ["a830-a832"]),
   (["Deva Dogr Gujr Guru Khoj Knda Kthi Mahj Modi Nand Shrd Sind Takr Tirh",
     "Tutg"],
    ["a833-a835"]),
   (["Deva Dogr Gujr Guru Khoj Kthi Mahj Modi Shrd Sind Takr Tirh"], ["a838"]),
   (["Deva Dogr Gujr Guru Khoj Kthi Mahj Modi Sind Takr Tirh"], ["a836-a837 a839"]),
   (["Deva Dogr Kthi Mahj"], ["966-96f"]),
   (["Deva Gran"], ["1cf3 1cf8-1cf9"]),
   (["Deva Gran Knda"], ["1cd3"]),
   (["Deva Gran Knda Tutg"], ["1cf4"]),
   (["Deva Gran Latn"], ["20f0"]),
   (["Deva Knda Mlym Orya Taml Telu"], ["1cda"]),
   (["Deva Nand Newa"], ["1ce9"]),
   (["Deva Newa"], ["1ceb"]),
   (["Deva Newa Shrd"], ["1cd7"]),
   (["Deva Newa Tirh"], ["1ce2"]),
   (["Deva Shrd"], ["1cd9 1cdc-1cdd 1ce0"]),
   (["Deva Taml"], ["a8f3"]),
   (["Dupl"], ["2e3c 1bca0-1bca3"]),
   (["Dupl Latn Syrc"], ["30a"]),
   (["Ethi Latn"], ["30e"]),
   (["Geor Glag Latn"], ["10fb"]),
   (["Glag Latn Sunu Syrc Thai"], ["303"]),
   (["Gran Taml"], ["be6-bf3 11301 11303 1133b-1133c 11fd0-11fd1 11fd3"]),
   (["Grek"], ["342 345 1dc0-1dc1"]),
   (["Grek Latn Perm Todr"], ["313"]),
   (["Gujr Khoj"], ["ae6-aef"]),
   (["Guru Mult"], ["a66-a6f"]),
   (["Hani"],
    ["3006 303e-303f 3190-319f 31c0-31e5 3220-3247 3280-32b0 32c0-32cb 32ff",
     "3358-3370 337b-337f 33e0-33fe 1d360-1d371 1f250-1f251"]),
   (["Hani Hira Kana"], ["303c-303d"]),
   (["Hani Latn"], ["a700-a707"]),
   (["Hani Tang"], ["2ff0-2fff 31ef"]),
   (["Hira Kana"], ["3031-3035 3099-309c 30a0 30fc ff70 ff9e-ff9f"]),
   (["Kali Latn Mymr"], ["a92e"]),
   (["Knda Nand Tutg"], ["ce6-cef"]),
   (["Latn"], ["363-36f"]),
   (["Latn Lisu"], ["2cd"]),
   (["Latn Mong Phag"], ["202f"]),
   (["Latn Osge"], ["358"]),
   (["Latn Sunu"], ["30d 310"]),
   (["Latn Sunu Syrc"], ["32d"]),
   (["Latn Syrc"], ["325 32e"]),
   (["Latn Tfng"], ["309"]),
   (["Latn Thai"], ["2d7"]),
   (["Mani Ougr"], ["10af2"]),
   (["Mong Phag"], ["1802-1803 1805"]),
   (["Nand"], ["1cfa"]),
   (["Runr"], ["16eb-16ed"]),
   (["Syrc"], ["1dfa"])]

/-- The characters in use in a script: its own ones, but for those with other extensions, and those
whose extensions list it. -/
def users (code : String) : Intervals :=
  let extended := extensions.map fun (codes, lines) =>
    (codes.any fun line => (line.splitOn " ").contains code, Intervals.ofLines lines)
  let listed := (extended.filter (·.1)).flatMap (·.2)
  let all := Intervals.ofUnsorted (extended.flatMap (·.2))
  Intervals.union (Intervals.difference (members code) all) (Intervals.ofUnsorted listed)

end Parlance.Text.Script
