import WebForm.Text.Ranges

/-!
# Normal spelling

Some characters are only another spelling of others: ligatures, characters of full or half width,
letters in the style of mathematics. Others are made of two, such as a letter and the accent on it.
In normal spelling nothing is written that can be written more simply.
-/
namespace WebForm.Text

/-- The letters, digits and marks that are spellings of others. -/
def variants : Ranges :=
  [(0xaa, 0xb5), (0xba, 0xba), (0x132, 0x133), (0x13f, 0x140), (0x149, 0x149), (0x17f, 0x17f),
   (0x1c4, 0x1cc), (0x1f1, 0x1f3), (0x2b0, 0x2b8), (0x2e0, 0x2e4), (0x340, 0x341), (0x343, 0x344),
   (0x374, 0x374), (0x387, 0x387), (0x3d0, 0x3d6), (0x3f0, 0x3f2), (0x3f4, 0x3f5), (0x3f9, 0x3f9),
   (0x587, 0x587), (0x675, 0x678), (0x958, 0x95f), (0x9dc, 0x9df), (0xa33, 0xa33), (0xa36, 0xa36),
   (0xa59, 0xa5b), (0xa5e, 0xa5e), (0xb5c, 0xb5d), (0xe33, 0xe33), (0xeb3, 0xeb3), (0xedc, 0xedd),
   (0xf43, 0xf43), (0xf4d, 0xf4d), (0xf52, 0xf52), (0xf57, 0xf57), (0xf5c, 0xf5c), (0xf69, 0xf69),
   (0xf73, 0xf73), (0xf75, 0xf79), (0xf81, 0xf81), (0xf93, 0xf93), (0xf9d, 0xf9d), (0xfa2, 0xfa2),
   (0xfa7, 0xfa7), (0xfac, 0xfac), (0xfb9, 0xfb9), (0x10fc, 0x10fc), (0x1d2c, 0x1d2e),
   (0x1d30, 0x1d3a), (0x1d3c, 0x1d4d), (0x1d4f, 0x1d6a), (0x1d78, 0x1d78), (0x1d9b, 0x1dbf),
   (0x1e9a, 0x1e9b), (0x1f71, 0x1f71), (0x1f73, 0x1f73), (0x1f75, 0x1f75), (0x1f77, 0x1f77),
   (0x1f79, 0x1f79), (0x1f7b, 0x1f7b), (0x1f7d, 0x1f7d), (0x1fbb, 0x1fbb), (0x1fbe, 0x1fbe),
   (0x1fc9, 0x1fc9), (0x1fcb, 0x1fcb), (0x1fd3, 0x1fd3), (0x1fdb, 0x1fdb), (0x1fe3, 0x1fe3),
   (0x1feb, 0x1feb), (0x1ff9, 0x1ff9), (0x1ffb, 0x1ffb), (0x2071, 0x209c), (0x2102, 0x2115),
   (0x2119, 0x212d), (0x212f, 0x2131), (0x2133, 0x2149), (0x2160, 0x217f), (0x2c7c, 0x2c7d),
   (0x2d6f, 0x2d6f), (0x3038, 0x303a), (0x309f, 0x309f), (0x30ff, 0x30ff), (0x3131, 0x318e),
   (0xa69c, 0xa69d), (0xa770, 0xa770), (0xa7f2, 0xa7f4), (0xa7f8, 0xa7f9), (0xab5c, 0xab5f),
   (0xab69, 0xab69), (0xf900, 0xfa0d), (0xfa10, 0xfa10), (0xfa12, 0xfa12), (0xfa15, 0xfa1e),
   (0xfa20, 0xfa20), (0xfa22, 0xfa22), (0xfa25, 0xfa26), (0xfa2a, 0xfb1d), (0xfb1f, 0xfdf9),
   (0xfe33, 0xfe71), (0xfe77, 0xffdc), (0x10781, 0x107ba), (0x1d400, 0x1d7ff), (0x1ee00, 0x1fbf9),
   (0x2f800, 0x2fa1d)]

def composing : List (Nat × String) :=
  [(0x300, "AEINOUWYaeinouwyÂÊÔÜâêôüĂăĒēŌōƠơƯưΑΕΗΙΟΥΩαεηιουωϊϋЕИеиἀἁἈἉἐἑἘἙἠἡἨἩἰἱἸἹὀὁὈὉὐὑὙὠὡὨ"),
   (0x300, "Ὡ"),
   (0x301, "ACEGIKLMNOPRSUWYZacegiklmnoprsuwyzÂÅÆÇÊÏÔÕØÜâåæçêïôõøüĂăĒēŌōŨũƠơƯưΑΕΗΙΟΥΩαεηιουω"),
   (0x301, "ϊϋГКгкἀἁἈἉἐἑἘἙἠἡἨἩἰἱἸἹὀὁὈὉὐὑὙὠὡὨὩ"), (0x302, "ACEGHIJOSUWYZaceghijosuwyzẠạẸẹỌọ"),
   (0x303, "AEINOUVYaeinouvyÂÊÔâêôĂăƠơƯư"), (0x304, "AEGIOUYaegiouyÄÆÕÖÜäæõöüǪǫȦȧȮȯΑΙΥαιυИУиуḶḷṚṛ"),
   (0x306, "AEGIOUaegiouȨȩΑΙΥαιυАЕЖИУаежиуẠạ"),
   (0x307, "ABCDEFGHIMNOPRSTWXYZabcdefghmnoprstwxyzŚśŠšṢṣ"),
   (0x308, "AEHIOUWXYaehiotuwxyÕõŪūΙΥιυІАЕЖЗИОУЧЫЭаежзиоучыэіӘәӨө"),
   (0x309, "AEIOUYaeiouyÂÊÔâêôĂăƠơƯư"), (0x30a, "AUauwy"), (0x30b, "OUouУу"),
   (0x30c, "ACDEGHIKLNORSTUZacdeghijklnorstuzÜüƷʒ"), (0x30f, "AEIORUaeioruѴѵ"),
   (0x311, "AEIORUaeioru"), (0x313, "ΑΕΗΙΟΩαεηιορυω"), (0x314, "ΑΕΗΙΟΡΥΩαεηιορυω"), (0x31b, "OUou"),
   (0x323, "ABDEHIKLMNORSTUVWYZabdehiklmnorstuvwyzƠơƯư"), (0x324, "Uu"), (0x325, "Aa"),
   (0x326, "STst"), (0x327, "CDEGHKLNRSTcdeghklnrst"), (0x328, "AEIOUaeiou"),
   (0x32d, "DELNTUdelntu"), (0x32e, "Hh"), (0x330, "EIUeiu"), (0x331, "BDKLNRTZbdhklnrtz"),
   (0x342, "αηιυωϊϋἀἁἈἉἠἡἨἩἰἱἸἹὐὑὙὠὡὨὩ"),
   (0x345, "ΑΗΩάήαηωώἀἁἂἃἄἅἆἇἈἉἊἋἌἍἎἏἠἡἢἣἤἥἦἧἨἩἪἫἬἭἮἯὠὡὢὣὤὥὦὧὨὩὪὫὬὭὮὯὰὴὼᾶῆῶ"), (0x653, "ا"),
   (0x654, "اويہےە"), (0x655, "ا"), (0x93c, "नरळ"), (0x9be, "ে"), (0x9d7, "ে"), (0xb3e, "େ"),
   (0xb56, "େ"), (0xb57, "େ"), (0xbbe, "ெே"), (0xbd7, "ஒெ"), (0xc56, "ె"), (0xcc2, "ೆ"),
   (0xcd5, "ಿೆೊ"), (0xcd6, "ೆ"), (0xd3e, "െേ"), (0xd57, "െ"), (0xdca, "ෙො"), (0xdcf, "ෙ"),
   (0xddf, "ෙ"), (0x102e, "ဥ"), (0x1b35, "ᬅᬇᬉᬋᬍᬑᬺᬼᬾᬿᭂ"),
   (0x3099, "うかきくけこさしすせそたちつてとはひふへほゝウカキクケコサシスセソタチツテトハヒフヘホワヰヱヲヽ"), (0x309a, "はひふへほハヒフヘホ"),
   (0x110ba, "𑂙𑂛𑂥"), (0x11127, "𑄱𑄲"), (0x1133e, "𑍇"), (0x11357, "𑍇"), (0x114b0, "𑒹"),
   (0x114ba, "𑒹"), (0x114bd, "𑒹"), (0x115af, "𑖸𑖹"), (0x11930, "𑤵")]

/-- Whether two neighbours make one syllable of Hangul: an initial and a vowel, or these and a
final. -/
def composesSyllable (c d : Char) : Bool :=
  let between (low high : Nat) (c : Char) : Bool := low ≤ c.toNat && c.toNat ≤ high
  between 0x1100 0x1112 c && between 0x1161 0x1175 d ||
    between 0xac00 0xd7a3 c && (c.toNat - 0xac00) % 28 = 0 && between 0x11a8 0x11c2 d

def composes (c d : Char) : Bool :=
  composesSyllable c d || composing.any fun e => e.1 = d.toNat && e.2.toList.contains c

/-- Whether no character and no two neighbours have a simpler spelling. -/
def isNormal (s : List Char) : Bool :=
  s.all (!variants.has ·) && (s.zip s.tail).all fun p => !composes p.1 p.2

end WebForm.Text
