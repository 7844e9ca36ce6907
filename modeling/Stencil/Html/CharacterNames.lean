namespace Stencil.Html

/-! # Names of characters

The names by which HTML refers to a character, or to two at once, in the order of their letters:
capital letters come before small ones.
-/

/-- A name and the numbers of the characters that it stands for. -/
structure CharacterName where
  text : String
  codes : List Nat
  /-- The name may stand without its semicolon. -/
  isOpen : Bool
deriving DecidableEq, Repr

/-- The characters that a name stands for. -/
def CharacterName.chars (name : CharacterName) : List Char :=
  name.codes.map Char.ofNat

def capitalNamesAtoD : List CharacterName :=
  [⟨"AElig", [0xC6], true⟩, ⟨"AMP", [0x26], true⟩, ⟨"Aacute", [0xC1], true⟩,
    ⟨"Abreve", [0x102], false⟩, ⟨"Acirc", [0xC2], true⟩, ⟨"Acy", [0x410], false⟩,
    ⟨"Afr", [0x1D504], false⟩, ⟨"Agrave", [0xC0], true⟩, ⟨"Alpha", [0x391], false⟩,
    ⟨"Amacr", [0x100], false⟩, ⟨"And", [0x2A53], false⟩, ⟨"Aogon", [0x104], false⟩,
    ⟨"Aopf", [0x1D538], false⟩, ⟨"ApplyFunction", [0x2061], false⟩, ⟨"Aring", [0xC5], true⟩,
    ⟨"Ascr", [0x1D49C], false⟩, ⟨"Assign", [0x2254], false⟩, ⟨"Atilde", [0xC3], true⟩,
    ⟨"Auml", [0xC4], true⟩, ⟨"Backslash", [0x2216], false⟩, ⟨"Barv", [0x2AE7], false⟩,
    ⟨"Barwed", [0x2306], false⟩, ⟨"Bcy", [0x411], false⟩, ⟨"Because", [0x2235], false⟩,
    ⟨"Bernoullis", [0x212C], false⟩, ⟨"Beta", [0x392], false⟩, ⟨"Bfr", [0x1D505], false⟩,
    ⟨"Bopf", [0x1D539], false⟩, ⟨"Breve", [0x2D8], false⟩, ⟨"Bscr", [0x212C], false⟩,
    ⟨"Bumpeq", [0x224E], false⟩, ⟨"CHcy", [0x427], false⟩, ⟨"COPY", [0xA9], true⟩,
    ⟨"Cacute", [0x106], false⟩, ⟨"Cap", [0x22D2], false⟩, ⟨"CapitalDifferentialD", [0x2145], false⟩,
    ⟨"Cayleys", [0x212D], false⟩, ⟨"Ccaron", [0x10C], false⟩, ⟨"Ccedil", [0xC7], true⟩,
    ⟨"Ccirc", [0x108], false⟩, ⟨"Cconint", [0x2230], false⟩, ⟨"Cdot", [0x10A], false⟩,
    ⟨"Cedilla", [0xB8], false⟩, ⟨"CenterDot", [0xB7], false⟩, ⟨"Cfr", [0x212D], false⟩,
    ⟨"Chi", [0x3A7], false⟩, ⟨"CircleDot", [0x2299], false⟩, ⟨"CircleMinus", [0x2296], false⟩,
    ⟨"CirclePlus", [0x2295], false⟩, ⟨"CircleTimes", [0x2297], false⟩,
    ⟨"ClockwiseContourIntegral", [0x2232], false⟩, ⟨"CloseCurlyDoubleQuote", [0x201D], false⟩,
    ⟨"CloseCurlyQuote", [0x2019], false⟩, ⟨"Colon", [0x2237], false⟩, ⟨"Colone", [0x2A74], false⟩,
    ⟨"Congruent", [0x2261], false⟩, ⟨"Conint", [0x222F], false⟩,
    ⟨"ContourIntegral", [0x222E], false⟩, ⟨"Copf", [0x2102], false⟩, ⟨"Coproduct", [0x2210], false⟩,
    ⟨"CounterClockwiseContourIntegral", [0x2233], false⟩, ⟨"Cross", [0x2A2F], false⟩,
    ⟨"Cscr", [0x1D49E], false⟩, ⟨"Cup", [0x22D3], false⟩, ⟨"CupCap", [0x224D], false⟩,
    ⟨"DD", [0x2145], false⟩, ⟨"DDotrahd", [0x2911], false⟩, ⟨"DJcy", [0x402], false⟩,
    ⟨"DScy", [0x405], false⟩, ⟨"DZcy", [0x40F], false⟩, ⟨"Dagger", [0x2021], false⟩,
    ⟨"Darr", [0x21A1], false⟩, ⟨"Dashv", [0x2AE4], false⟩, ⟨"Dcaron", [0x10E], false⟩,
    ⟨"Dcy", [0x414], false⟩, ⟨"Del", [0x2207], false⟩, ⟨"Delta", [0x394], false⟩,
    ⟨"Dfr", [0x1D507], false⟩, ⟨"DiacriticalAcute", [0xB4], false⟩,
    ⟨"DiacriticalDot", [0x2D9], false⟩, ⟨"DiacriticalDoubleAcute", [0x2DD], false⟩,
    ⟨"DiacriticalGrave", [0x60], false⟩, ⟨"DiacriticalTilde", [0x2DC], false⟩,
    ⟨"Diamond", [0x22C4], false⟩, ⟨"DifferentialD", [0x2146], false⟩, ⟨"Dopf", [0x1D53B], false⟩,
    ⟨"Dot", [0xA8], false⟩, ⟨"DotDot", [0x20DC], false⟩, ⟨"DotEqual", [0x2250], false⟩,
    ⟨"DoubleContourIntegral", [0x222F], false⟩, ⟨"DoubleDot", [0xA8], false⟩,
    ⟨"DoubleDownArrow", [0x21D3], false⟩, ⟨"DoubleLeftArrow", [0x21D0], false⟩,
    ⟨"DoubleLeftRightArrow", [0x21D4], false⟩, ⟨"DoubleLeftTee", [0x2AE4], false⟩,
    ⟨"DoubleLongLeftArrow", [0x27F8], false⟩, ⟨"DoubleLongLeftRightArrow", [0x27FA], false⟩,
    ⟨"DoubleLongRightArrow", [0x27F9], false⟩, ⟨"DoubleRightArrow", [0x21D2], false⟩,
    ⟨"DoubleRightTee", [0x22A8], false⟩, ⟨"DoubleUpArrow", [0x21D1], false⟩,
    ⟨"DoubleUpDownArrow", [0x21D5], false⟩, ⟨"DoubleVerticalBar", [0x2225], false⟩,
    ⟨"DownArrow", [0x2193], false⟩, ⟨"DownArrowBar", [0x2913], false⟩,
    ⟨"DownArrowUpArrow", [0x21F5], false⟩, ⟨"DownBreve", [0x311], false⟩,
    ⟨"DownLeftRightVector", [0x2950], false⟩, ⟨"DownLeftTeeVector", [0x295E], false⟩,
    ⟨"DownLeftVector", [0x21BD], false⟩, ⟨"DownLeftVectorBar", [0x2956], false⟩,
    ⟨"DownRightTeeVector", [0x295F], false⟩, ⟨"DownRightVector", [0x21C1], false⟩,
    ⟨"DownRightVectorBar", [0x2957], false⟩, ⟨"DownTee", [0x22A4], false⟩,
    ⟨"DownTeeArrow", [0x21A7], false⟩, ⟨"Downarrow", [0x21D3], false⟩, ⟨"Dscr", [0x1D49F], false⟩,
    ⟨"Dstrok", [0x110], false⟩]

def capitalNamesEtoK : List CharacterName :=
  [⟨"ENG", [0x14A], false⟩, ⟨"ETH", [0xD0], true⟩, ⟨"Eacute", [0xC9], true⟩,
    ⟨"Ecaron", [0x11A], false⟩, ⟨"Ecirc", [0xCA], true⟩, ⟨"Ecy", [0x42D], false⟩,
    ⟨"Edot", [0x116], false⟩, ⟨"Efr", [0x1D508], false⟩, ⟨"Egrave", [0xC8], true⟩,
    ⟨"Element", [0x2208], false⟩, ⟨"Emacr", [0x112], false⟩, ⟨"EmptySmallSquare", [0x25FB], false⟩,
    ⟨"EmptyVerySmallSquare", [0x25AB], false⟩, ⟨"Eogon", [0x118], false⟩,
    ⟨"Eopf", [0x1D53C], false⟩, ⟨"Epsilon", [0x395], false⟩, ⟨"Equal", [0x2A75], false⟩,
    ⟨"EqualTilde", [0x2242], false⟩, ⟨"Equilibrium", [0x21CC], false⟩, ⟨"Escr", [0x2130], false⟩,
    ⟨"Esim", [0x2A73], false⟩, ⟨"Eta", [0x397], false⟩, ⟨"Euml", [0xCB], true⟩,
    ⟨"Exists", [0x2203], false⟩, ⟨"ExponentialE", [0x2147], false⟩, ⟨"Fcy", [0x424], false⟩,
    ⟨"Ffr", [0x1D509], false⟩, ⟨"FilledSmallSquare", [0x25FC], false⟩,
    ⟨"FilledVerySmallSquare", [0x25AA], false⟩, ⟨"Fopf", [0x1D53D], false⟩,
    ⟨"ForAll", [0x2200], false⟩, ⟨"Fouriertrf", [0x2131], false⟩, ⟨"Fscr", [0x2131], false⟩,
    ⟨"GJcy", [0x403], false⟩, ⟨"GT", [0x3E], true⟩, ⟨"Gamma", [0x393], false⟩,
    ⟨"Gammad", [0x3DC], false⟩, ⟨"Gbreve", [0x11E], false⟩, ⟨"Gcedil", [0x122], false⟩,
    ⟨"Gcirc", [0x11C], false⟩, ⟨"Gcy", [0x413], false⟩, ⟨"Gdot", [0x120], false⟩,
    ⟨"Gfr", [0x1D50A], false⟩, ⟨"Gg", [0x22D9], false⟩, ⟨"Gopf", [0x1D53E], false⟩,
    ⟨"GreaterEqual", [0x2265], false⟩, ⟨"GreaterEqualLess", [0x22DB], false⟩,
    ⟨"GreaterFullEqual", [0x2267], false⟩, ⟨"GreaterGreater", [0x2AA2], false⟩,
    ⟨"GreaterLess", [0x2277], false⟩, ⟨"GreaterSlantEqual", [0x2A7E], false⟩,
    ⟨"GreaterTilde", [0x2273], false⟩, ⟨"Gscr", [0x1D4A2], false⟩, ⟨"Gt", [0x226B], false⟩,
    ⟨"HARDcy", [0x42A], false⟩, ⟨"Hacek", [0x2C7], false⟩, ⟨"Hat", [0x5E], false⟩,
    ⟨"Hcirc", [0x124], false⟩, ⟨"Hfr", [0x210C], false⟩, ⟨"HilbertSpace", [0x210B], false⟩,
    ⟨"Hopf", [0x210D], false⟩, ⟨"HorizontalLine", [0x2500], false⟩, ⟨"Hscr", [0x210B], false⟩,
    ⟨"Hstrok", [0x126], false⟩, ⟨"HumpDownHump", [0x224E], false⟩, ⟨"HumpEqual", [0x224F], false⟩,
    ⟨"IEcy", [0x415], false⟩, ⟨"IJlig", [0x132], false⟩, ⟨"IOcy", [0x401], false⟩,
    ⟨"Iacute", [0xCD], true⟩, ⟨"Icirc", [0xCE], true⟩, ⟨"Icy", [0x418], false⟩,
    ⟨"Idot", [0x130], false⟩, ⟨"Ifr", [0x2111], false⟩, ⟨"Igrave", [0xCC], true⟩,
    ⟨"Im", [0x2111], false⟩, ⟨"Imacr", [0x12A], false⟩, ⟨"ImaginaryI", [0x2148], false⟩,
    ⟨"Implies", [0x21D2], false⟩, ⟨"Int", [0x222C], false⟩, ⟨"Integral", [0x222B], false⟩,
    ⟨"Intersection", [0x22C2], false⟩, ⟨"InvisibleComma", [0x2063], false⟩,
    ⟨"InvisibleTimes", [0x2062], false⟩, ⟨"Iogon", [0x12E], false⟩, ⟨"Iopf", [0x1D540], false⟩,
    ⟨"Iota", [0x399], false⟩, ⟨"Iscr", [0x2110], false⟩, ⟨"Itilde", [0x128], false⟩,
    ⟨"Iukcy", [0x406], false⟩, ⟨"Iuml", [0xCF], true⟩, ⟨"Jcirc", [0x134], false⟩,
    ⟨"Jcy", [0x419], false⟩, ⟨"Jfr", [0x1D50D], false⟩, ⟨"Jopf", [0x1D541], false⟩,
    ⟨"Jscr", [0x1D4A5], false⟩, ⟨"Jsercy", [0x408], false⟩, ⟨"Jukcy", [0x404], false⟩,
    ⟨"KHcy", [0x425], false⟩, ⟨"KJcy", [0x40C], false⟩, ⟨"Kappa", [0x39A], false⟩,
    ⟨"Kcedil", [0x136], false⟩, ⟨"Kcy", [0x41A], false⟩, ⟨"Kfr", [0x1D50E], false⟩,
    ⟨"Kopf", [0x1D542], false⟩, ⟨"Kscr", [0x1D4A6], false⟩]

def capitalNamesLtoN : List CharacterName :=
  [⟨"LJcy", [0x409], false⟩, ⟨"LT", [0x3C], true⟩, ⟨"Lacute", [0x139], false⟩,
    ⟨"Lambda", [0x39B], false⟩, ⟨"Lang", [0x27EA], false⟩, ⟨"Laplacetrf", [0x2112], false⟩,
    ⟨"Larr", [0x219E], false⟩, ⟨"Lcaron", [0x13D], false⟩, ⟨"Lcedil", [0x13B], false⟩,
    ⟨"Lcy", [0x41B], false⟩, ⟨"LeftAngleBracket", [0x27E8], false⟩, ⟨"LeftArrow", [0x2190], false⟩,
    ⟨"LeftArrowBar", [0x21E4], false⟩, ⟨"LeftArrowRightArrow", [0x21C6], false⟩,
    ⟨"LeftCeiling", [0x2308], false⟩, ⟨"LeftDoubleBracket", [0x27E6], false⟩,
    ⟨"LeftDownTeeVector", [0x2961], false⟩, ⟨"LeftDownVector", [0x21C3], false⟩,
    ⟨"LeftDownVectorBar", [0x2959], false⟩, ⟨"LeftFloor", [0x230A], false⟩,
    ⟨"LeftRightArrow", [0x2194], false⟩, ⟨"LeftRightVector", [0x294E], false⟩,
    ⟨"LeftTee", [0x22A3], false⟩, ⟨"LeftTeeArrow", [0x21A4], false⟩,
    ⟨"LeftTeeVector", [0x295A], false⟩, ⟨"LeftTriangle", [0x22B2], false⟩,
    ⟨"LeftTriangleBar", [0x29CF], false⟩, ⟨"LeftTriangleEqual", [0x22B4], false⟩,
    ⟨"LeftUpDownVector", [0x2951], false⟩, ⟨"LeftUpTeeVector", [0x2960], false⟩,
    ⟨"LeftUpVector", [0x21BF], false⟩, ⟨"LeftUpVectorBar", [0x2958], false⟩,
    ⟨"LeftVector", [0x21BC], false⟩, ⟨"LeftVectorBar", [0x2952], false⟩,
    ⟨"Leftarrow", [0x21D0], false⟩, ⟨"Leftrightarrow", [0x21D4], false⟩,
    ⟨"LessEqualGreater", [0x22DA], false⟩, ⟨"LessFullEqual", [0x2266], false⟩,
    ⟨"LessGreater", [0x2276], false⟩, ⟨"LessLess", [0x2AA1], false⟩,
    ⟨"LessSlantEqual", [0x2A7D], false⟩, ⟨"LessTilde", [0x2272], false⟩, ⟨"Lfr", [0x1D50F], false⟩,
    ⟨"Ll", [0x22D8], false⟩, ⟨"Lleftarrow", [0x21DA], false⟩, ⟨"Lmidot", [0x13F], false⟩,
    ⟨"LongLeftArrow", [0x27F5], false⟩, ⟨"LongLeftRightArrow", [0x27F7], false⟩,
    ⟨"LongRightArrow", [0x27F6], false⟩, ⟨"Longleftarrow", [0x27F8], false⟩,
    ⟨"Longleftrightarrow", [0x27FA], false⟩, ⟨"Longrightarrow", [0x27F9], false⟩,
    ⟨"Lopf", [0x1D543], false⟩, ⟨"LowerLeftArrow", [0x2199], false⟩,
    ⟨"LowerRightArrow", [0x2198], false⟩, ⟨"Lscr", [0x2112], false⟩, ⟨"Lsh", [0x21B0], false⟩,
    ⟨"Lstrok", [0x141], false⟩, ⟨"Lt", [0x226A], false⟩, ⟨"Map", [0x2905], false⟩,
    ⟨"Mcy", [0x41C], false⟩, ⟨"MediumSpace", [0x205F], false⟩, ⟨"Mellintrf", [0x2133], false⟩,
    ⟨"Mfr", [0x1D510], false⟩, ⟨"MinusPlus", [0x2213], false⟩, ⟨"Mopf", [0x1D544], false⟩,
    ⟨"Mscr", [0x2133], false⟩, ⟨"Mu", [0x39C], false⟩, ⟨"NJcy", [0x40A], false⟩,
    ⟨"Nacute", [0x143], false⟩, ⟨"Ncaron", [0x147], false⟩, ⟨"Ncedil", [0x145], false⟩,
    ⟨"Ncy", [0x41D], false⟩, ⟨"NegativeMediumSpace", [0x200B], false⟩,
    ⟨"NegativeThickSpace", [0x200B], false⟩, ⟨"NegativeThinSpace", [0x200B], false⟩,
    ⟨"NegativeVeryThinSpace", [0x200B], false⟩, ⟨"NestedGreaterGreater", [0x226B], false⟩,
    ⟨"NestedLessLess", [0x226A], false⟩, ⟨"NewLine", [0xA], false⟩, ⟨"Nfr", [0x1D511], false⟩,
    ⟨"NoBreak", [0x2060], false⟩, ⟨"NonBreakingSpace", [0xA0], false⟩, ⟨"Nopf", [0x2115], false⟩,
    ⟨"Not", [0x2AEC], false⟩, ⟨"NotCongruent", [0x2262], false⟩, ⟨"NotCupCap", [0x226D], false⟩,
    ⟨"NotDoubleVerticalBar", [0x2226], false⟩, ⟨"NotElement", [0x2209], false⟩,
    ⟨"NotEqual", [0x2260], false⟩, ⟨"NotEqualTilde", [0x2242, 0x338], false⟩,
    ⟨"NotExists", [0x2204], false⟩, ⟨"NotGreater", [0x226F], false⟩,
    ⟨"NotGreaterEqual", [0x2271], false⟩, ⟨"NotGreaterFullEqual", [0x2267, 0x338], false⟩,
    ⟨"NotGreaterGreater", [0x226B, 0x338], false⟩, ⟨"NotGreaterLess", [0x2279], false⟩,
    ⟨"NotGreaterSlantEqual", [0x2A7E, 0x338], false⟩, ⟨"NotGreaterTilde", [0x2275], false⟩,
    ⟨"NotHumpDownHump", [0x224E, 0x338], false⟩, ⟨"NotHumpEqual", [0x224F, 0x338], false⟩,
    ⟨"NotLeftTriangle", [0x22EA], false⟩, ⟨"NotLeftTriangleBar", [0x29CF, 0x338], false⟩,
    ⟨"NotLeftTriangleEqual", [0x22EC], false⟩, ⟨"NotLess", [0x226E], false⟩,
    ⟨"NotLessEqual", [0x2270], false⟩, ⟨"NotLessGreater", [0x2278], false⟩,
    ⟨"NotLessLess", [0x226A, 0x338], false⟩, ⟨"NotLessSlantEqual", [0x2A7D, 0x338], false⟩,
    ⟨"NotLessTilde", [0x2274], false⟩, ⟨"NotNestedGreaterGreater", [0x2AA2, 0x338], false⟩,
    ⟨"NotNestedLessLess", [0x2AA1, 0x338], false⟩, ⟨"NotPrecedes", [0x2280], false⟩,
    ⟨"NotPrecedesEqual", [0x2AAF, 0x338], false⟩, ⟨"NotPrecedesSlantEqual", [0x22E0], false⟩,
    ⟨"NotReverseElement", [0x220C], false⟩, ⟨"NotRightTriangle", [0x22EB], false⟩,
    ⟨"NotRightTriangleBar", [0x29D0, 0x338], false⟩, ⟨"NotRightTriangleEqual", [0x22ED], false⟩,
    ⟨"NotSquareSubset", [0x228F, 0x338], false⟩, ⟨"NotSquareSubsetEqual", [0x22E2], false⟩,
    ⟨"NotSquareSuperset", [0x2290, 0x338], false⟩, ⟨"NotSquareSupersetEqual", [0x22E3], false⟩,
    ⟨"NotSubset", [0x2282, 0x20D2], false⟩, ⟨"NotSubsetEqual", [0x2288], false⟩,
    ⟨"NotSucceeds", [0x2281], false⟩, ⟨"NotSucceedsEqual", [0x2AB0, 0x338], false⟩,
    ⟨"NotSucceedsSlantEqual", [0x22E1], false⟩, ⟨"NotSucceedsTilde", [0x227F, 0x338], false⟩,
    ⟨"NotSuperset", [0x2283, 0x20D2], false⟩, ⟨"NotSupersetEqual", [0x2289], false⟩,
    ⟨"NotTilde", [0x2241], false⟩, ⟨"NotTildeEqual", [0x2244], false⟩,
    ⟨"NotTildeFullEqual", [0x2247], false⟩, ⟨"NotTildeTilde", [0x2249], false⟩,
    ⟨"NotVerticalBar", [0x2224], false⟩, ⟨"Nscr", [0x1D4A9], false⟩, ⟨"Ntilde", [0xD1], true⟩,
    ⟨"Nu", [0x39D], false⟩]

def capitalNamesOtoR : List CharacterName :=
  [⟨"OElig", [0x152], false⟩, ⟨"Oacute", [0xD3], true⟩, ⟨"Ocirc", [0xD4], true⟩,
    ⟨"Ocy", [0x41E], false⟩, ⟨"Odblac", [0x150], false⟩, ⟨"Ofr", [0x1D512], false⟩,
    ⟨"Ograve", [0xD2], true⟩, ⟨"Omacr", [0x14C], false⟩, ⟨"Omega", [0x3A9], false⟩,
    ⟨"Omicron", [0x39F], false⟩, ⟨"Oopf", [0x1D546], false⟩,
    ⟨"OpenCurlyDoubleQuote", [0x201C], false⟩, ⟨"OpenCurlyQuote", [0x2018], false⟩,
    ⟨"Or", [0x2A54], false⟩, ⟨"Oscr", [0x1D4AA], false⟩, ⟨"Oslash", [0xD8], true⟩,
    ⟨"Otilde", [0xD5], true⟩, ⟨"Otimes", [0x2A37], false⟩, ⟨"Ouml", [0xD6], true⟩,
    ⟨"OverBar", [0x203E], false⟩, ⟨"OverBrace", [0x23DE], false⟩, ⟨"OverBracket", [0x23B4], false⟩,
    ⟨"OverParenthesis", [0x23DC], false⟩, ⟨"PartialD", [0x2202], false⟩, ⟨"Pcy", [0x41F], false⟩,
    ⟨"Pfr", [0x1D513], false⟩, ⟨"Phi", [0x3A6], false⟩, ⟨"Pi", [0x3A0], false⟩,
    ⟨"PlusMinus", [0xB1], false⟩, ⟨"Poincareplane", [0x210C], false⟩, ⟨"Popf", [0x2119], false⟩,
    ⟨"Pr", [0x2ABB], false⟩, ⟨"Precedes", [0x227A], false⟩, ⟨"PrecedesEqual", [0x2AAF], false⟩,
    ⟨"PrecedesSlantEqual", [0x227C], false⟩, ⟨"PrecedesTilde", [0x227E], false⟩,
    ⟨"Prime", [0x2033], false⟩, ⟨"Product", [0x220F], false⟩, ⟨"Proportion", [0x2237], false⟩,
    ⟨"Proportional", [0x221D], false⟩, ⟨"Pscr", [0x1D4AB], false⟩, ⟨"Psi", [0x3A8], false⟩,
    ⟨"QUOT", [0x22], true⟩, ⟨"Qfr", [0x1D514], false⟩, ⟨"Qopf", [0x211A], false⟩,
    ⟨"Qscr", [0x1D4AC], false⟩, ⟨"RBarr", [0x2910], false⟩, ⟨"REG", [0xAE], true⟩,
    ⟨"Racute", [0x154], false⟩, ⟨"Rang", [0x27EB], false⟩, ⟨"Rarr", [0x21A0], false⟩,
    ⟨"Rarrtl", [0x2916], false⟩, ⟨"Rcaron", [0x158], false⟩, ⟨"Rcedil", [0x156], false⟩,
    ⟨"Rcy", [0x420], false⟩, ⟨"Re", [0x211C], false⟩, ⟨"ReverseElement", [0x220B], false⟩,
    ⟨"ReverseEquilibrium", [0x21CB], false⟩, ⟨"ReverseUpEquilibrium", [0x296F], false⟩,
    ⟨"Rfr", [0x211C], false⟩, ⟨"Rho", [0x3A1], false⟩, ⟨"RightAngleBracket", [0x27E9], false⟩,
    ⟨"RightArrow", [0x2192], false⟩, ⟨"RightArrowBar", [0x21E5], false⟩,
    ⟨"RightArrowLeftArrow", [0x21C4], false⟩, ⟨"RightCeiling", [0x2309], false⟩,
    ⟨"RightDoubleBracket", [0x27E7], false⟩, ⟨"RightDownTeeVector", [0x295D], false⟩,
    ⟨"RightDownVector", [0x21C2], false⟩, ⟨"RightDownVectorBar", [0x2955], false⟩,
    ⟨"RightFloor", [0x230B], false⟩, ⟨"RightTee", [0x22A2], false⟩,
    ⟨"RightTeeArrow", [0x21A6], false⟩, ⟨"RightTeeVector", [0x295B], false⟩,
    ⟨"RightTriangle", [0x22B3], false⟩, ⟨"RightTriangleBar", [0x29D0], false⟩,
    ⟨"RightTriangleEqual", [0x22B5], false⟩, ⟨"RightUpDownVector", [0x294F], false⟩,
    ⟨"RightUpTeeVector", [0x295C], false⟩, ⟨"RightUpVector", [0x21BE], false⟩,
    ⟨"RightUpVectorBar", [0x2954], false⟩, ⟨"RightVector", [0x21C0], false⟩,
    ⟨"RightVectorBar", [0x2953], false⟩, ⟨"Rightarrow", [0x21D2], false⟩, ⟨"Ropf", [0x211D], false⟩,
    ⟨"RoundImplies", [0x2970], false⟩, ⟨"Rrightarrow", [0x21DB], false⟩, ⟨"Rscr", [0x211B], false⟩,
    ⟨"Rsh", [0x21B1], false⟩, ⟨"RuleDelayed", [0x29F4], false⟩]

def capitalNamesStoZ : List CharacterName :=
  [⟨"SHCHcy", [0x429], false⟩, ⟨"SHcy", [0x428], false⟩, ⟨"SOFTcy", [0x42C], false⟩,
    ⟨"Sacute", [0x15A], false⟩, ⟨"Sc", [0x2ABC], false⟩, ⟨"Scaron", [0x160], false⟩,
    ⟨"Scedil", [0x15E], false⟩, ⟨"Scirc", [0x15C], false⟩, ⟨"Scy", [0x421], false⟩,
    ⟨"Sfr", [0x1D516], false⟩, ⟨"ShortDownArrow", [0x2193], false⟩,
    ⟨"ShortLeftArrow", [0x2190], false⟩, ⟨"ShortRightArrow", [0x2192], false⟩,
    ⟨"ShortUpArrow", [0x2191], false⟩, ⟨"Sigma", [0x3A3], false⟩, ⟨"SmallCircle", [0x2218], false⟩,
    ⟨"Sopf", [0x1D54A], false⟩, ⟨"Sqrt", [0x221A], false⟩, ⟨"Square", [0x25A1], false⟩,
    ⟨"SquareIntersection", [0x2293], false⟩, ⟨"SquareSubset", [0x228F], false⟩,
    ⟨"SquareSubsetEqual", [0x2291], false⟩, ⟨"SquareSuperset", [0x2290], false⟩,
    ⟨"SquareSupersetEqual", [0x2292], false⟩, ⟨"SquareUnion", [0x2294], false⟩,
    ⟨"Sscr", [0x1D4AE], false⟩, ⟨"Star", [0x22C6], false⟩, ⟨"Sub", [0x22D0], false⟩,
    ⟨"Subset", [0x22D0], false⟩, ⟨"SubsetEqual", [0x2286], false⟩, ⟨"Succeeds", [0x227B], false⟩,
    ⟨"SucceedsEqual", [0x2AB0], false⟩, ⟨"SucceedsSlantEqual", [0x227D], false⟩,
    ⟨"SucceedsTilde", [0x227F], false⟩, ⟨"SuchThat", [0x220B], false⟩, ⟨"Sum", [0x2211], false⟩,
    ⟨"Sup", [0x22D1], false⟩, ⟨"Superset", [0x2283], false⟩, ⟨"SupersetEqual", [0x2287], false⟩,
    ⟨"Supset", [0x22D1], false⟩, ⟨"THORN", [0xDE], true⟩, ⟨"TRADE", [0x2122], false⟩,
    ⟨"TSHcy", [0x40B], false⟩, ⟨"TScy", [0x426], false⟩, ⟨"Tab", [0x9], false⟩,
    ⟨"Tau", [0x3A4], false⟩, ⟨"Tcaron", [0x164], false⟩, ⟨"Tcedil", [0x162], false⟩,
    ⟨"Tcy", [0x422], false⟩, ⟨"Tfr", [0x1D517], false⟩, ⟨"Therefore", [0x2234], false⟩,
    ⟨"Theta", [0x398], false⟩, ⟨"ThickSpace", [0x205F, 0x200A], false⟩,
    ⟨"ThinSpace", [0x2009], false⟩, ⟨"Tilde", [0x223C], false⟩, ⟨"TildeEqual", [0x2243], false⟩,
    ⟨"TildeFullEqual", [0x2245], false⟩, ⟨"TildeTilde", [0x2248], false⟩,
    ⟨"Topf", [0x1D54B], false⟩, ⟨"TripleDot", [0x20DB], false⟩, ⟨"Tscr", [0x1D4AF], false⟩,
    ⟨"Tstrok", [0x166], false⟩, ⟨"Uacute", [0xDA], true⟩, ⟨"Uarr", [0x219F], false⟩,
    ⟨"Uarrocir", [0x2949], false⟩, ⟨"Ubrcy", [0x40E], false⟩, ⟨"Ubreve", [0x16C], false⟩,
    ⟨"Ucirc", [0xDB], true⟩, ⟨"Ucy", [0x423], false⟩, ⟨"Udblac", [0x170], false⟩,
    ⟨"Ufr", [0x1D518], false⟩, ⟨"Ugrave", [0xD9], true⟩, ⟨"Umacr", [0x16A], false⟩,
    ⟨"UnderBar", [0x5F], false⟩, ⟨"UnderBrace", [0x23DF], false⟩, ⟨"UnderBracket", [0x23B5], false⟩,
    ⟨"UnderParenthesis", [0x23DD], false⟩, ⟨"Union", [0x22C3], false⟩,
    ⟨"UnionPlus", [0x228E], false⟩, ⟨"Uogon", [0x172], false⟩, ⟨"Uopf", [0x1D54C], false⟩,
    ⟨"UpArrow", [0x2191], false⟩, ⟨"UpArrowBar", [0x2912], false⟩,
    ⟨"UpArrowDownArrow", [0x21C5], false⟩, ⟨"UpDownArrow", [0x2195], false⟩,
    ⟨"UpEquilibrium", [0x296E], false⟩, ⟨"UpTee", [0x22A5], false⟩, ⟨"UpTeeArrow", [0x21A5], false⟩,
    ⟨"Uparrow", [0x21D1], false⟩, ⟨"Updownarrow", [0x21D5], false⟩,
    ⟨"UpperLeftArrow", [0x2196], false⟩, ⟨"UpperRightArrow", [0x2197], false⟩,
    ⟨"Upsi", [0x3D2], false⟩, ⟨"Upsilon", [0x3A5], false⟩, ⟨"Uring", [0x16E], false⟩,
    ⟨"Uscr", [0x1D4B0], false⟩, ⟨"Utilde", [0x168], false⟩, ⟨"Uuml", [0xDC], true⟩,
    ⟨"VDash", [0x22AB], false⟩, ⟨"Vbar", [0x2AEB], false⟩, ⟨"Vcy", [0x412], false⟩,
    ⟨"Vdash", [0x22A9], false⟩, ⟨"Vdashl", [0x2AE6], false⟩, ⟨"Vee", [0x22C1], false⟩,
    ⟨"Verbar", [0x2016], false⟩, ⟨"Vert", [0x2016], false⟩, ⟨"VerticalBar", [0x2223], false⟩,
    ⟨"VerticalLine", [0x7C], false⟩, ⟨"VerticalSeparator", [0x2758], false⟩,
    ⟨"VerticalTilde", [0x2240], false⟩, ⟨"VeryThinSpace", [0x200A], false⟩,
    ⟨"Vfr", [0x1D519], false⟩, ⟨"Vopf", [0x1D54D], false⟩, ⟨"Vscr", [0x1D4B1], false⟩,
    ⟨"Vvdash", [0x22AA], false⟩, ⟨"Wcirc", [0x174], false⟩, ⟨"Wedge", [0x22C0], false⟩,
    ⟨"Wfr", [0x1D51A], false⟩, ⟨"Wopf", [0x1D54E], false⟩, ⟨"Wscr", [0x1D4B2], false⟩,
    ⟨"Xfr", [0x1D51B], false⟩, ⟨"Xi", [0x39E], false⟩, ⟨"Xopf", [0x1D54F], false⟩,
    ⟨"Xscr", [0x1D4B3], false⟩, ⟨"YAcy", [0x42F], false⟩, ⟨"YIcy", [0x407], false⟩,
    ⟨"YUcy", [0x42E], false⟩, ⟨"Yacute", [0xDD], true⟩, ⟨"Ycirc", [0x176], false⟩,
    ⟨"Ycy", [0x42B], false⟩, ⟨"Yfr", [0x1D51C], false⟩, ⟨"Yopf", [0x1D550], false⟩,
    ⟨"Yscr", [0x1D4B4], false⟩, ⟨"Yuml", [0x178], false⟩, ⟨"ZHcy", [0x416], false⟩,
    ⟨"Zacute", [0x179], false⟩, ⟨"Zcaron", [0x17D], false⟩, ⟨"Zcy", [0x417], false⟩,
    ⟨"Zdot", [0x17B], false⟩, ⟨"ZeroWidthSpace", [0x200B], false⟩, ⟨"Zeta", [0x396], false⟩,
    ⟨"Zfr", [0x2128], false⟩, ⟨"Zopf", [0x2124], false⟩, ⟨"Zscr", [0x1D4B5], false⟩]

def smallNamesAtoB : List CharacterName :=
  [⟨"aacute", [0xE1], true⟩, ⟨"abreve", [0x103], false⟩, ⟨"ac", [0x223E], false⟩,
    ⟨"acE", [0x223E, 0x333], false⟩, ⟨"acd", [0x223F], false⟩, ⟨"acirc", [0xE2], true⟩,
    ⟨"acute", [0xB4], true⟩, ⟨"acy", [0x430], false⟩, ⟨"aelig", [0xE6], true⟩,
    ⟨"af", [0x2061], false⟩, ⟨"afr", [0x1D51E], false⟩, ⟨"agrave", [0xE0], true⟩,
    ⟨"alefsym", [0x2135], false⟩, ⟨"aleph", [0x2135], false⟩, ⟨"alpha", [0x3B1], false⟩,
    ⟨"amacr", [0x101], false⟩, ⟨"amalg", [0x2A3F], false⟩, ⟨"amp", [0x26], true⟩,
    ⟨"and", [0x2227], false⟩, ⟨"andand", [0x2A55], false⟩, ⟨"andd", [0x2A5C], false⟩,
    ⟨"andslope", [0x2A58], false⟩, ⟨"andv", [0x2A5A], false⟩, ⟨"ang", [0x2220], false⟩,
    ⟨"ange", [0x29A4], false⟩, ⟨"angle", [0x2220], false⟩, ⟨"angmsd", [0x2221], false⟩,
    ⟨"angmsdaa", [0x29A8], false⟩, ⟨"angmsdab", [0x29A9], false⟩, ⟨"angmsdac", [0x29AA], false⟩,
    ⟨"angmsdad", [0x29AB], false⟩, ⟨"angmsdae", [0x29AC], false⟩, ⟨"angmsdaf", [0x29AD], false⟩,
    ⟨"angmsdag", [0x29AE], false⟩, ⟨"angmsdah", [0x29AF], false⟩, ⟨"angrt", [0x221F], false⟩,
    ⟨"angrtvb", [0x22BE], false⟩, ⟨"angrtvbd", [0x299D], false⟩, ⟨"angsph", [0x2222], false⟩,
    ⟨"angst", [0xC5], false⟩, ⟨"angzarr", [0x237C], false⟩, ⟨"aogon", [0x105], false⟩,
    ⟨"aopf", [0x1D552], false⟩, ⟨"ap", [0x2248], false⟩, ⟨"apE", [0x2A70], false⟩,
    ⟨"apacir", [0x2A6F], false⟩, ⟨"ape", [0x224A], false⟩, ⟨"apid", [0x224B], false⟩,
    ⟨"apos", [0x27], false⟩, ⟨"approx", [0x2248], false⟩, ⟨"approxeq", [0x224A], false⟩,
    ⟨"aring", [0xE5], true⟩, ⟨"ascr", [0x1D4B6], false⟩, ⟨"ast", [0x2A], false⟩,
    ⟨"asymp", [0x2248], false⟩, ⟨"asympeq", [0x224D], false⟩, ⟨"atilde", [0xE3], true⟩,
    ⟨"auml", [0xE4], true⟩, ⟨"awconint", [0x2233], false⟩, ⟨"awint", [0x2A11], false⟩,
    ⟨"bNot", [0x2AED], false⟩, ⟨"backcong", [0x224C], false⟩, ⟨"backepsilon", [0x3F6], false⟩,
    ⟨"backprime", [0x2035], false⟩, ⟨"backsim", [0x223D], false⟩, ⟨"backsimeq", [0x22CD], false⟩,
    ⟨"barvee", [0x22BD], false⟩, ⟨"barwed", [0x2305], false⟩, ⟨"barwedge", [0x2305], false⟩,
    ⟨"bbrk", [0x23B5], false⟩, ⟨"bbrktbrk", [0x23B6], false⟩, ⟨"bcong", [0x224C], false⟩,
    ⟨"bcy", [0x431], false⟩, ⟨"bdquo", [0x201E], false⟩, ⟨"becaus", [0x2235], false⟩,
    ⟨"because", [0x2235], false⟩, ⟨"bemptyv", [0x29B0], false⟩, ⟨"bepsi", [0x3F6], false⟩,
    ⟨"bernou", [0x212C], false⟩, ⟨"beta", [0x3B2], false⟩, ⟨"beth", [0x2136], false⟩,
    ⟨"between", [0x226C], false⟩, ⟨"bfr", [0x1D51F], false⟩, ⟨"bigcap", [0x22C2], false⟩,
    ⟨"bigcirc", [0x25EF], false⟩, ⟨"bigcup", [0x22C3], false⟩, ⟨"bigodot", [0x2A00], false⟩,
    ⟨"bigoplus", [0x2A01], false⟩, ⟨"bigotimes", [0x2A02], false⟩, ⟨"bigsqcup", [0x2A06], false⟩,
    ⟨"bigstar", [0x2605], false⟩, ⟨"bigtriangledown", [0x25BD], false⟩,
    ⟨"bigtriangleup", [0x25B3], false⟩, ⟨"biguplus", [0x2A04], false⟩, ⟨"bigvee", [0x22C1], false⟩,
    ⟨"bigwedge", [0x22C0], false⟩, ⟨"bkarow", [0x290D], false⟩, ⟨"blacklozenge", [0x29EB], false⟩,
    ⟨"blacksquare", [0x25AA], false⟩, ⟨"blacktriangle", [0x25B4], false⟩,
    ⟨"blacktriangledown", [0x25BE], false⟩, ⟨"blacktriangleleft", [0x25C2], false⟩,
    ⟨"blacktriangleright", [0x25B8], false⟩, ⟨"blank", [0x2423], false⟩, ⟨"blk12", [0x2592], false⟩,
    ⟨"blk14", [0x2591], false⟩, ⟨"blk34", [0x2593], false⟩, ⟨"block", [0x2588], false⟩,
    ⟨"bne", [0x3D, 0x20E5], false⟩, ⟨"bnequiv", [0x2261, 0x20E5], false⟩, ⟨"bnot", [0x2310], false⟩,
    ⟨"bopf", [0x1D553], false⟩, ⟨"bot", [0x22A5], false⟩, ⟨"bottom", [0x22A5], false⟩,
    ⟨"bowtie", [0x22C8], false⟩, ⟨"boxDL", [0x2557], false⟩, ⟨"boxDR", [0x2554], false⟩,
    ⟨"boxDl", [0x2556], false⟩, ⟨"boxDr", [0x2553], false⟩, ⟨"boxH", [0x2550], false⟩,
    ⟨"boxHD", [0x2566], false⟩, ⟨"boxHU", [0x2569], false⟩, ⟨"boxHd", [0x2564], false⟩,
    ⟨"boxHu", [0x2567], false⟩, ⟨"boxUL", [0x255D], false⟩, ⟨"boxUR", [0x255A], false⟩,
    ⟨"boxUl", [0x255C], false⟩, ⟨"boxUr", [0x2559], false⟩, ⟨"boxV", [0x2551], false⟩,
    ⟨"boxVH", [0x256C], false⟩, ⟨"boxVL", [0x2563], false⟩, ⟨"boxVR", [0x2560], false⟩,
    ⟨"boxVh", [0x256B], false⟩, ⟨"boxVl", [0x2562], false⟩, ⟨"boxVr", [0x255F], false⟩,
    ⟨"boxbox", [0x29C9], false⟩, ⟨"boxdL", [0x2555], false⟩, ⟨"boxdR", [0x2552], false⟩,
    ⟨"boxdl", [0x2510], false⟩, ⟨"boxdr", [0x250C], false⟩, ⟨"boxh", [0x2500], false⟩,
    ⟨"boxhD", [0x2565], false⟩, ⟨"boxhU", [0x2568], false⟩, ⟨"boxhd", [0x252C], false⟩,
    ⟨"boxhu", [0x2534], false⟩, ⟨"boxminus", [0x229F], false⟩, ⟨"boxplus", [0x229E], false⟩,
    ⟨"boxtimes", [0x22A0], false⟩, ⟨"boxuL", [0x255B], false⟩, ⟨"boxuR", [0x2558], false⟩,
    ⟨"boxul", [0x2518], false⟩, ⟨"boxur", [0x2514], false⟩, ⟨"boxv", [0x2502], false⟩,
    ⟨"boxvH", [0x256A], false⟩, ⟨"boxvL", [0x2561], false⟩, ⟨"boxvR", [0x255E], false⟩,
    ⟨"boxvh", [0x253C], false⟩, ⟨"boxvl", [0x2524], false⟩, ⟨"boxvr", [0x251C], false⟩,
    ⟨"bprime", [0x2035], false⟩, ⟨"breve", [0x2D8], false⟩, ⟨"brvbar", [0xA6], true⟩,
    ⟨"bscr", [0x1D4B7], false⟩, ⟨"bsemi", [0x204F], false⟩, ⟨"bsim", [0x223D], false⟩,
    ⟨"bsime", [0x22CD], false⟩, ⟨"bsol", [0x5C], false⟩, ⟨"bsolb", [0x29C5], false⟩,
    ⟨"bsolhsub", [0x27C8], false⟩, ⟨"bull", [0x2022], false⟩, ⟨"bullet", [0x2022], false⟩,
    ⟨"bump", [0x224E], false⟩, ⟨"bumpE", [0x2AAE], false⟩, ⟨"bumpe", [0x224F], false⟩,
    ⟨"bumpeq", [0x224F], false⟩]

def smallNamesCtoD : List CharacterName :=
  [⟨"cacute", [0x107], false⟩, ⟨"cap", [0x2229], false⟩, ⟨"capand", [0x2A44], false⟩,
    ⟨"capbrcup", [0x2A49], false⟩, ⟨"capcap", [0x2A4B], false⟩, ⟨"capcup", [0x2A47], false⟩,
    ⟨"capdot", [0x2A40], false⟩, ⟨"caps", [0x2229, 0xFE00], false⟩, ⟨"caret", [0x2041], false⟩,
    ⟨"caron", [0x2C7], false⟩, ⟨"ccaps", [0x2A4D], false⟩, ⟨"ccaron", [0x10D], false⟩,
    ⟨"ccedil", [0xE7], true⟩, ⟨"ccirc", [0x109], false⟩, ⟨"ccups", [0x2A4C], false⟩,
    ⟨"ccupssm", [0x2A50], false⟩, ⟨"cdot", [0x10B], false⟩, ⟨"cedil", [0xB8], true⟩,
    ⟨"cemptyv", [0x29B2], false⟩, ⟨"cent", [0xA2], true⟩, ⟨"centerdot", [0xB7], false⟩,
    ⟨"cfr", [0x1D520], false⟩, ⟨"chcy", [0x447], false⟩, ⟨"check", [0x2713], false⟩,
    ⟨"checkmark", [0x2713], false⟩, ⟨"chi", [0x3C7], false⟩, ⟨"cir", [0x25CB], false⟩,
    ⟨"cirE", [0x29C3], false⟩, ⟨"circ", [0x2C6], false⟩, ⟨"circeq", [0x2257], false⟩,
    ⟨"circlearrowleft", [0x21BA], false⟩, ⟨"circlearrowright", [0x21BB], false⟩,
    ⟨"circledR", [0xAE], false⟩, ⟨"circledS", [0x24C8], false⟩, ⟨"circledast", [0x229B], false⟩,
    ⟨"circledcirc", [0x229A], false⟩, ⟨"circleddash", [0x229D], false⟩, ⟨"cire", [0x2257], false⟩,
    ⟨"cirfnint", [0x2A10], false⟩, ⟨"cirmid", [0x2AEF], false⟩, ⟨"cirscir", [0x29C2], false⟩,
    ⟨"clubs", [0x2663], false⟩, ⟨"clubsuit", [0x2663], false⟩, ⟨"colon", [0x3A], false⟩,
    ⟨"colone", [0x2254], false⟩, ⟨"coloneq", [0x2254], false⟩, ⟨"comma", [0x2C], false⟩,
    ⟨"commat", [0x40], false⟩, ⟨"comp", [0x2201], false⟩, ⟨"compfn", [0x2218], false⟩,
    ⟨"complement", [0x2201], false⟩, ⟨"complexes", [0x2102], false⟩, ⟨"cong", [0x2245], false⟩,
    ⟨"congdot", [0x2A6D], false⟩, ⟨"conint", [0x222E], false⟩, ⟨"copf", [0x1D554], false⟩,
    ⟨"coprod", [0x2210], false⟩, ⟨"copy", [0xA9], true⟩, ⟨"copysr", [0x2117], false⟩,
    ⟨"crarr", [0x21B5], false⟩, ⟨"cross", [0x2717], false⟩, ⟨"cscr", [0x1D4B8], false⟩,
    ⟨"csub", [0x2ACF], false⟩, ⟨"csube", [0x2AD1], false⟩, ⟨"csup", [0x2AD0], false⟩,
    ⟨"csupe", [0x2AD2], false⟩, ⟨"ctdot", [0x22EF], false⟩, ⟨"cudarrl", [0x2938], false⟩,
    ⟨"cudarrr", [0x2935], false⟩, ⟨"cuepr", [0x22DE], false⟩, ⟨"cuesc", [0x22DF], false⟩,
    ⟨"cularr", [0x21B6], false⟩, ⟨"cularrp", [0x293D], false⟩, ⟨"cup", [0x222A], false⟩,
    ⟨"cupbrcap", [0x2A48], false⟩, ⟨"cupcap", [0x2A46], false⟩, ⟨"cupcup", [0x2A4A], false⟩,
    ⟨"cupdot", [0x228D], false⟩, ⟨"cupor", [0x2A45], false⟩, ⟨"cups", [0x222A, 0xFE00], false⟩,
    ⟨"curarr", [0x21B7], false⟩, ⟨"curarrm", [0x293C], false⟩, ⟨"curlyeqprec", [0x22DE], false⟩,
    ⟨"curlyeqsucc", [0x22DF], false⟩, ⟨"curlyvee", [0x22CE], false⟩,
    ⟨"curlywedge", [0x22CF], false⟩, ⟨"curren", [0xA4], true⟩, ⟨"curvearrowleft", [0x21B6], false⟩,
    ⟨"curvearrowright", [0x21B7], false⟩, ⟨"cuvee", [0x22CE], false⟩, ⟨"cuwed", [0x22CF], false⟩,
    ⟨"cwconint", [0x2232], false⟩, ⟨"cwint", [0x2231], false⟩, ⟨"cylcty", [0x232D], false⟩,
    ⟨"dArr", [0x21D3], false⟩, ⟨"dHar", [0x2965], false⟩, ⟨"dagger", [0x2020], false⟩,
    ⟨"daleth", [0x2138], false⟩, ⟨"darr", [0x2193], false⟩, ⟨"dash", [0x2010], false⟩,
    ⟨"dashv", [0x22A3], false⟩, ⟨"dbkarow", [0x290F], false⟩, ⟨"dblac", [0x2DD], false⟩,
    ⟨"dcaron", [0x10F], false⟩, ⟨"dcy", [0x434], false⟩, ⟨"dd", [0x2146], false⟩,
    ⟨"ddagger", [0x2021], false⟩, ⟨"ddarr", [0x21CA], false⟩, ⟨"ddotseq", [0x2A77], false⟩,
    ⟨"deg", [0xB0], true⟩, ⟨"delta", [0x3B4], false⟩, ⟨"demptyv", [0x29B1], false⟩,
    ⟨"dfisht", [0x297F], false⟩, ⟨"dfr", [0x1D521], false⟩, ⟨"dharl", [0x21C3], false⟩,
    ⟨"dharr", [0x21C2], false⟩, ⟨"diam", [0x22C4], false⟩, ⟨"diamond", [0x22C4], false⟩,
    ⟨"diamondsuit", [0x2666], false⟩, ⟨"diams", [0x2666], false⟩, ⟨"die", [0xA8], false⟩,
    ⟨"digamma", [0x3DD], false⟩, ⟨"disin", [0x22F2], false⟩, ⟨"div", [0xF7], false⟩,
    ⟨"divide", [0xF7], true⟩, ⟨"divideontimes", [0x22C7], false⟩, ⟨"divonx", [0x22C7], false⟩,
    ⟨"djcy", [0x452], false⟩, ⟨"dlcorn", [0x231E], false⟩, ⟨"dlcrop", [0x230D], false⟩,
    ⟨"dollar", [0x24], false⟩, ⟨"dopf", [0x1D555], false⟩, ⟨"dot", [0x2D9], false⟩,
    ⟨"doteq", [0x2250], false⟩, ⟨"doteqdot", [0x2251], false⟩, ⟨"dotminus", [0x2238], false⟩,
    ⟨"dotplus", [0x2214], false⟩, ⟨"dotsquare", [0x22A1], false⟩,
    ⟨"doublebarwedge", [0x2306], false⟩, ⟨"downarrow", [0x2193], false⟩,
    ⟨"downdownarrows", [0x21CA], false⟩, ⟨"downharpoonleft", [0x21C3], false⟩,
    ⟨"downharpoonright", [0x21C2], false⟩, ⟨"drbkarow", [0x2910], false⟩,
    ⟨"drcorn", [0x231F], false⟩, ⟨"drcrop", [0x230C], false⟩, ⟨"dscr", [0x1D4B9], false⟩,
    ⟨"dscy", [0x455], false⟩, ⟨"dsol", [0x29F6], false⟩, ⟨"dstrok", [0x111], false⟩,
    ⟨"dtdot", [0x22F1], false⟩, ⟨"dtri", [0x25BF], false⟩, ⟨"dtrif", [0x25BE], false⟩,
    ⟨"duarr", [0x21F5], false⟩, ⟨"duhar", [0x296F], false⟩, ⟨"dwangle", [0x29A6], false⟩,
    ⟨"dzcy", [0x45F], false⟩, ⟨"dzigrarr", [0x27FF], false⟩]

def smallNamesEtoG : List CharacterName :=
  [⟨"eDDot", [0x2A77], false⟩, ⟨"eDot", [0x2251], false⟩, ⟨"eacute", [0xE9], true⟩,
    ⟨"easter", [0x2A6E], false⟩, ⟨"ecaron", [0x11B], false⟩, ⟨"ecir", [0x2256], false⟩,
    ⟨"ecirc", [0xEA], true⟩, ⟨"ecolon", [0x2255], false⟩, ⟨"ecy", [0x44D], false⟩,
    ⟨"edot", [0x117], false⟩, ⟨"ee", [0x2147], false⟩, ⟨"efDot", [0x2252], false⟩,
    ⟨"efr", [0x1D522], false⟩, ⟨"eg", [0x2A9A], false⟩, ⟨"egrave", [0xE8], true⟩,
    ⟨"egs", [0x2A96], false⟩, ⟨"egsdot", [0x2A98], false⟩, ⟨"el", [0x2A99], false⟩,
    ⟨"elinters", [0x23E7], false⟩, ⟨"ell", [0x2113], false⟩, ⟨"els", [0x2A95], false⟩,
    ⟨"elsdot", [0x2A97], false⟩, ⟨"emacr", [0x113], false⟩, ⟨"empty", [0x2205], false⟩,
    ⟨"emptyset", [0x2205], false⟩, ⟨"emptyv", [0x2205], false⟩, ⟨"emsp", [0x2003], false⟩,
    ⟨"emsp13", [0x2004], false⟩, ⟨"emsp14", [0x2005], false⟩, ⟨"eng", [0x14B], false⟩,
    ⟨"ensp", [0x2002], false⟩, ⟨"eogon", [0x119], false⟩, ⟨"eopf", [0x1D556], false⟩,
    ⟨"epar", [0x22D5], false⟩, ⟨"eparsl", [0x29E3], false⟩, ⟨"eplus", [0x2A71], false⟩,
    ⟨"epsi", [0x3B5], false⟩, ⟨"epsilon", [0x3B5], false⟩, ⟨"epsiv", [0x3F5], false⟩,
    ⟨"eqcirc", [0x2256], false⟩, ⟨"eqcolon", [0x2255], false⟩, ⟨"eqsim", [0x2242], false⟩,
    ⟨"eqslantgtr", [0x2A96], false⟩, ⟨"eqslantless", [0x2A95], false⟩, ⟨"equals", [0x3D], false⟩,
    ⟨"equest", [0x225F], false⟩, ⟨"equiv", [0x2261], false⟩, ⟨"equivDD", [0x2A78], false⟩,
    ⟨"eqvparsl", [0x29E5], false⟩, ⟨"erDot", [0x2253], false⟩, ⟨"erarr", [0x2971], false⟩,
    ⟨"escr", [0x212F], false⟩, ⟨"esdot", [0x2250], false⟩, ⟨"esim", [0x2242], false⟩,
    ⟨"eta", [0x3B7], false⟩, ⟨"eth", [0xF0], true⟩, ⟨"euml", [0xEB], true⟩,
    ⟨"euro", [0x20AC], false⟩, ⟨"excl", [0x21], false⟩, ⟨"exist", [0x2203], false⟩,
    ⟨"expectation", [0x2130], false⟩, ⟨"exponentiale", [0x2147], false⟩,
    ⟨"fallingdotseq", [0x2252], false⟩, ⟨"fcy", [0x444], false⟩, ⟨"female", [0x2640], false⟩,
    ⟨"ffilig", [0xFB03], false⟩, ⟨"fflig", [0xFB00], false⟩, ⟨"ffllig", [0xFB04], false⟩,
    ⟨"ffr", [0x1D523], false⟩, ⟨"filig", [0xFB01], false⟩, ⟨"fjlig", [0x66, 0x6A], false⟩,
    ⟨"flat", [0x266D], false⟩, ⟨"fllig", [0xFB02], false⟩, ⟨"fltns", [0x25B1], false⟩,
    ⟨"fnof", [0x192], false⟩, ⟨"fopf", [0x1D557], false⟩, ⟨"forall", [0x2200], false⟩,
    ⟨"fork", [0x22D4], false⟩, ⟨"forkv", [0x2AD9], false⟩, ⟨"fpartint", [0x2A0D], false⟩,
    ⟨"frac12", [0xBD], true⟩, ⟨"frac13", [0x2153], false⟩, ⟨"frac14", [0xBC], true⟩,
    ⟨"frac15", [0x2155], false⟩, ⟨"frac16", [0x2159], false⟩, ⟨"frac18", [0x215B], false⟩,
    ⟨"frac23", [0x2154], false⟩, ⟨"frac25", [0x2156], false⟩, ⟨"frac34", [0xBE], true⟩,
    ⟨"frac35", [0x2157], false⟩, ⟨"frac38", [0x215C], false⟩, ⟨"frac45", [0x2158], false⟩,
    ⟨"frac56", [0x215A], false⟩, ⟨"frac58", [0x215D], false⟩, ⟨"frac78", [0x215E], false⟩,
    ⟨"frasl", [0x2044], false⟩, ⟨"frown", [0x2322], false⟩, ⟨"fscr", [0x1D4BB], false⟩,
    ⟨"gE", [0x2267], false⟩, ⟨"gEl", [0x2A8C], false⟩, ⟨"gacute", [0x1F5], false⟩,
    ⟨"gamma", [0x3B3], false⟩, ⟨"gammad", [0x3DD], false⟩, ⟨"gap", [0x2A86], false⟩,
    ⟨"gbreve", [0x11F], false⟩, ⟨"gcirc", [0x11D], false⟩, ⟨"gcy", [0x433], false⟩,
    ⟨"gdot", [0x121], false⟩, ⟨"ge", [0x2265], false⟩, ⟨"gel", [0x22DB], false⟩,
    ⟨"geq", [0x2265], false⟩, ⟨"geqq", [0x2267], false⟩, ⟨"geqslant", [0x2A7E], false⟩,
    ⟨"ges", [0x2A7E], false⟩, ⟨"gescc", [0x2AA9], false⟩, ⟨"gesdot", [0x2A80], false⟩,
    ⟨"gesdoto", [0x2A82], false⟩, ⟨"gesdotol", [0x2A84], false⟩, ⟨"gesl", [0x22DB, 0xFE00], false⟩,
    ⟨"gesles", [0x2A94], false⟩, ⟨"gfr", [0x1D524], false⟩, ⟨"gg", [0x226B], false⟩,
    ⟨"ggg", [0x22D9], false⟩, ⟨"gimel", [0x2137], false⟩, ⟨"gjcy", [0x453], false⟩,
    ⟨"gl", [0x2277], false⟩, ⟨"glE", [0x2A92], false⟩, ⟨"gla", [0x2AA5], false⟩,
    ⟨"glj", [0x2AA4], false⟩, ⟨"gnE", [0x2269], false⟩, ⟨"gnap", [0x2A8A], false⟩,
    ⟨"gnapprox", [0x2A8A], false⟩, ⟨"gne", [0x2A88], false⟩, ⟨"gneq", [0x2A88], false⟩,
    ⟨"gneqq", [0x2269], false⟩, ⟨"gnsim", [0x22E7], false⟩, ⟨"gopf", [0x1D558], false⟩,
    ⟨"grave", [0x60], false⟩, ⟨"gscr", [0x210A], false⟩, ⟨"gsim", [0x2273], false⟩,
    ⟨"gsime", [0x2A8E], false⟩, ⟨"gsiml", [0x2A90], false⟩, ⟨"gt", [0x3E], true⟩,
    ⟨"gtcc", [0x2AA7], false⟩, ⟨"gtcir", [0x2A7A], false⟩, ⟨"gtdot", [0x22D7], false⟩,
    ⟨"gtlPar", [0x2995], false⟩, ⟨"gtquest", [0x2A7C], false⟩, ⟨"gtrapprox", [0x2A86], false⟩,
    ⟨"gtrarr", [0x2978], false⟩, ⟨"gtrdot", [0x22D7], false⟩, ⟨"gtreqless", [0x22DB], false⟩,
    ⟨"gtreqqless", [0x2A8C], false⟩, ⟨"gtrless", [0x2277], false⟩, ⟨"gtrsim", [0x2273], false⟩,
    ⟨"gvertneqq", [0x2269, 0xFE00], false⟩, ⟨"gvnE", [0x2269, 0xFE00], false⟩]

def smallNamesHtoK : List CharacterName :=
  [⟨"hArr", [0x21D4], false⟩, ⟨"hairsp", [0x200A], false⟩, ⟨"half", [0xBD], false⟩,
    ⟨"hamilt", [0x210B], false⟩, ⟨"hardcy", [0x44A], false⟩, ⟨"harr", [0x2194], false⟩,
    ⟨"harrcir", [0x2948], false⟩, ⟨"harrw", [0x21AD], false⟩, ⟨"hbar", [0x210F], false⟩,
    ⟨"hcirc", [0x125], false⟩, ⟨"hearts", [0x2665], false⟩, ⟨"heartsuit", [0x2665], false⟩,
    ⟨"hellip", [0x2026], false⟩, ⟨"hercon", [0x22B9], false⟩, ⟨"hfr", [0x1D525], false⟩,
    ⟨"hksearow", [0x2925], false⟩, ⟨"hkswarow", [0x2926], false⟩, ⟨"hoarr", [0x21FF], false⟩,
    ⟨"homtht", [0x223B], false⟩, ⟨"hookleftarrow", [0x21A9], false⟩,
    ⟨"hookrightarrow", [0x21AA], false⟩, ⟨"hopf", [0x1D559], false⟩, ⟨"horbar", [0x2015], false⟩,
    ⟨"hscr", [0x1D4BD], false⟩, ⟨"hslash", [0x210F], false⟩, ⟨"hstrok", [0x127], false⟩,
    ⟨"hybull", [0x2043], false⟩, ⟨"hyphen", [0x2010], false⟩, ⟨"iacute", [0xED], true⟩,
    ⟨"ic", [0x2063], false⟩, ⟨"icirc", [0xEE], true⟩, ⟨"icy", [0x438], false⟩,
    ⟨"iecy", [0x435], false⟩, ⟨"iexcl", [0xA1], true⟩, ⟨"iff", [0x21D4], false⟩,
    ⟨"ifr", [0x1D526], false⟩, ⟨"igrave", [0xEC], true⟩, ⟨"ii", [0x2148], false⟩,
    ⟨"iiiint", [0x2A0C], false⟩, ⟨"iiint", [0x222D], false⟩, ⟨"iinfin", [0x29DC], false⟩,
    ⟨"iiota", [0x2129], false⟩, ⟨"ijlig", [0x133], false⟩, ⟨"imacr", [0x12B], false⟩,
    ⟨"image", [0x2111], false⟩, ⟨"imagline", [0x2110], false⟩, ⟨"imagpart", [0x2111], false⟩,
    ⟨"imath", [0x131], false⟩, ⟨"imof", [0x22B7], false⟩, ⟨"imped", [0x1B5], false⟩,
    ⟨"in", [0x2208], false⟩, ⟨"incare", [0x2105], false⟩, ⟨"infin", [0x221E], false⟩,
    ⟨"infintie", [0x29DD], false⟩, ⟨"inodot", [0x131], false⟩, ⟨"int", [0x222B], false⟩,
    ⟨"intcal", [0x22BA], false⟩, ⟨"integers", [0x2124], false⟩, ⟨"intercal", [0x22BA], false⟩,
    ⟨"intlarhk", [0x2A17], false⟩, ⟨"intprod", [0x2A3C], false⟩, ⟨"iocy", [0x451], false⟩,
    ⟨"iogon", [0x12F], false⟩, ⟨"iopf", [0x1D55A], false⟩, ⟨"iota", [0x3B9], false⟩,
    ⟨"iprod", [0x2A3C], false⟩, ⟨"iquest", [0xBF], true⟩, ⟨"iscr", [0x1D4BE], false⟩,
    ⟨"isin", [0x2208], false⟩, ⟨"isinE", [0x22F9], false⟩, ⟨"isindot", [0x22F5], false⟩,
    ⟨"isins", [0x22F4], false⟩, ⟨"isinsv", [0x22F3], false⟩, ⟨"isinv", [0x2208], false⟩,
    ⟨"it", [0x2062], false⟩, ⟨"itilde", [0x129], false⟩, ⟨"iukcy", [0x456], false⟩,
    ⟨"iuml", [0xEF], true⟩, ⟨"jcirc", [0x135], false⟩, ⟨"jcy", [0x439], false⟩,
    ⟨"jfr", [0x1D527], false⟩, ⟨"jmath", [0x237], false⟩, ⟨"jopf", [0x1D55B], false⟩,
    ⟨"jscr", [0x1D4BF], false⟩, ⟨"jsercy", [0x458], false⟩, ⟨"jukcy", [0x454], false⟩,
    ⟨"kappa", [0x3BA], false⟩, ⟨"kappav", [0x3F0], false⟩, ⟨"kcedil", [0x137], false⟩,
    ⟨"kcy", [0x43A], false⟩, ⟨"kfr", [0x1D528], false⟩, ⟨"kgreen", [0x138], false⟩,
    ⟨"khcy", [0x445], false⟩, ⟨"kjcy", [0x45C], false⟩, ⟨"kopf", [0x1D55C], false⟩,
    ⟨"kscr", [0x1D4C0], false⟩]

def smallNamesLtoM : List CharacterName :=
  [⟨"lAarr", [0x21DA], false⟩, ⟨"lArr", [0x21D0], false⟩, ⟨"lAtail", [0x291B], false⟩,
    ⟨"lBarr", [0x290E], false⟩, ⟨"lE", [0x2266], false⟩, ⟨"lEg", [0x2A8B], false⟩,
    ⟨"lHar", [0x2962], false⟩, ⟨"lacute", [0x13A], false⟩, ⟨"laemptyv", [0x29B4], false⟩,
    ⟨"lagran", [0x2112], false⟩, ⟨"lambda", [0x3BB], false⟩, ⟨"lang", [0x27E8], false⟩,
    ⟨"langd", [0x2991], false⟩, ⟨"langle", [0x27E8], false⟩, ⟨"lap", [0x2A85], false⟩,
    ⟨"laquo", [0xAB], true⟩, ⟨"larr", [0x2190], false⟩, ⟨"larrb", [0x21E4], false⟩,
    ⟨"larrbfs", [0x291F], false⟩, ⟨"larrfs", [0x291D], false⟩, ⟨"larrhk", [0x21A9], false⟩,
    ⟨"larrlp", [0x21AB], false⟩, ⟨"larrpl", [0x2939], false⟩, ⟨"larrsim", [0x2973], false⟩,
    ⟨"larrtl", [0x21A2], false⟩, ⟨"lat", [0x2AAB], false⟩, ⟨"latail", [0x2919], false⟩,
    ⟨"late", [0x2AAD], false⟩, ⟨"lates", [0x2AAD, 0xFE00], false⟩, ⟨"lbarr", [0x290C], false⟩,
    ⟨"lbbrk", [0x2772], false⟩, ⟨"lbrace", [0x7B], false⟩, ⟨"lbrack", [0x5B], false⟩,
    ⟨"lbrke", [0x298B], false⟩, ⟨"lbrksld", [0x298F], false⟩, ⟨"lbrkslu", [0x298D], false⟩,
    ⟨"lcaron", [0x13E], false⟩, ⟨"lcedil", [0x13C], false⟩, ⟨"lceil", [0x2308], false⟩,
    ⟨"lcub", [0x7B], false⟩, ⟨"lcy", [0x43B], false⟩, ⟨"ldca", [0x2936], false⟩,
    ⟨"ldquo", [0x201C], false⟩, ⟨"ldquor", [0x201E], false⟩, ⟨"ldrdhar", [0x2967], false⟩,
    ⟨"ldrushar", [0x294B], false⟩, ⟨"ldsh", [0x21B2], false⟩, ⟨"le", [0x2264], false⟩,
    ⟨"leftarrow", [0x2190], false⟩, ⟨"leftarrowtail", [0x21A2], false⟩,
    ⟨"leftharpoondown", [0x21BD], false⟩, ⟨"leftharpoonup", [0x21BC], false⟩,
    ⟨"leftleftarrows", [0x21C7], false⟩, ⟨"leftrightarrow", [0x2194], false⟩,
    ⟨"leftrightarrows", [0x21C6], false⟩, ⟨"leftrightharpoons", [0x21CB], false⟩,
    ⟨"leftrightsquigarrow", [0x21AD], false⟩, ⟨"leftthreetimes", [0x22CB], false⟩,
    ⟨"leg", [0x22DA], false⟩, ⟨"leq", [0x2264], false⟩, ⟨"leqq", [0x2266], false⟩,
    ⟨"leqslant", [0x2A7D], false⟩, ⟨"les", [0x2A7D], false⟩, ⟨"lescc", [0x2AA8], false⟩,
    ⟨"lesdot", [0x2A7F], false⟩, ⟨"lesdoto", [0x2A81], false⟩, ⟨"lesdotor", [0x2A83], false⟩,
    ⟨"lesg", [0x22DA, 0xFE00], false⟩, ⟨"lesges", [0x2A93], false⟩, ⟨"lessapprox", [0x2A85], false⟩,
    ⟨"lessdot", [0x22D6], false⟩, ⟨"lesseqgtr", [0x22DA], false⟩, ⟨"lesseqqgtr", [0x2A8B], false⟩,
    ⟨"lessgtr", [0x2276], false⟩, ⟨"lesssim", [0x2272], false⟩, ⟨"lfisht", [0x297C], false⟩,
    ⟨"lfloor", [0x230A], false⟩, ⟨"lfr", [0x1D529], false⟩, ⟨"lg", [0x2276], false⟩,
    ⟨"lgE", [0x2A91], false⟩, ⟨"lhard", [0x21BD], false⟩, ⟨"lharu", [0x21BC], false⟩,
    ⟨"lharul", [0x296A], false⟩, ⟨"lhblk", [0x2584], false⟩, ⟨"ljcy", [0x459], false⟩,
    ⟨"ll", [0x226A], false⟩, ⟨"llarr", [0x21C7], false⟩, ⟨"llcorner", [0x231E], false⟩,
    ⟨"llhard", [0x296B], false⟩, ⟨"lltri", [0x25FA], false⟩, ⟨"lmidot", [0x140], false⟩,
    ⟨"lmoust", [0x23B0], false⟩, ⟨"lmoustache", [0x23B0], false⟩, ⟨"lnE", [0x2268], false⟩,
    ⟨"lnap", [0x2A89], false⟩, ⟨"lnapprox", [0x2A89], false⟩, ⟨"lne", [0x2A87], false⟩,
    ⟨"lneq", [0x2A87], false⟩, ⟨"lneqq", [0x2268], false⟩, ⟨"lnsim", [0x22E6], false⟩,
    ⟨"loang", [0x27EC], false⟩, ⟨"loarr", [0x21FD], false⟩, ⟨"lobrk", [0x27E6], false⟩,
    ⟨"longleftarrow", [0x27F5], false⟩, ⟨"longleftrightarrow", [0x27F7], false⟩,
    ⟨"longmapsto", [0x27FC], false⟩, ⟨"longrightarrow", [0x27F6], false⟩,
    ⟨"looparrowleft", [0x21AB], false⟩, ⟨"looparrowright", [0x21AC], false⟩,
    ⟨"lopar", [0x2985], false⟩, ⟨"lopf", [0x1D55D], false⟩, ⟨"loplus", [0x2A2D], false⟩,
    ⟨"lotimes", [0x2A34], false⟩, ⟨"lowast", [0x2217], false⟩, ⟨"lowbar", [0x5F], false⟩,
    ⟨"loz", [0x25CA], false⟩, ⟨"lozenge", [0x25CA], false⟩, ⟨"lozf", [0x29EB], false⟩,
    ⟨"lpar", [0x28], false⟩, ⟨"lparlt", [0x2993], false⟩, ⟨"lrarr", [0x21C6], false⟩,
    ⟨"lrcorner", [0x231F], false⟩, ⟨"lrhar", [0x21CB], false⟩, ⟨"lrhard", [0x296D], false⟩,
    ⟨"lrm", [0x200E], false⟩, ⟨"lrtri", [0x22BF], false⟩, ⟨"lsaquo", [0x2039], false⟩,
    ⟨"lscr", [0x1D4C1], false⟩, ⟨"lsh", [0x21B0], false⟩, ⟨"lsim", [0x2272], false⟩,
    ⟨"lsime", [0x2A8D], false⟩, ⟨"lsimg", [0x2A8F], false⟩, ⟨"lsqb", [0x5B], false⟩,
    ⟨"lsquo", [0x2018], false⟩, ⟨"lsquor", [0x201A], false⟩, ⟨"lstrok", [0x142], false⟩,
    ⟨"lt", [0x3C], true⟩, ⟨"ltcc", [0x2AA6], false⟩, ⟨"ltcir", [0x2A79], false⟩,
    ⟨"ltdot", [0x22D6], false⟩, ⟨"lthree", [0x22CB], false⟩, ⟨"ltimes", [0x22C9], false⟩,
    ⟨"ltlarr", [0x2976], false⟩, ⟨"ltquest", [0x2A7B], false⟩, ⟨"ltrPar", [0x2996], false⟩,
    ⟨"ltri", [0x25C3], false⟩, ⟨"ltrie", [0x22B4], false⟩, ⟨"ltrif", [0x25C2], false⟩,
    ⟨"lurdshar", [0x294A], false⟩, ⟨"luruhar", [0x2966], false⟩,
    ⟨"lvertneqq", [0x2268, 0xFE00], false⟩, ⟨"lvnE", [0x2268, 0xFE00], false⟩,
    ⟨"mDDot", [0x223A], false⟩, ⟨"macr", [0xAF], true⟩, ⟨"male", [0x2642], false⟩,
    ⟨"malt", [0x2720], false⟩, ⟨"maltese", [0x2720], false⟩, ⟨"map", [0x21A6], false⟩,
    ⟨"mapsto", [0x21A6], false⟩, ⟨"mapstodown", [0x21A7], false⟩, ⟨"mapstoleft", [0x21A4], false⟩,
    ⟨"mapstoup", [0x21A5], false⟩, ⟨"marker", [0x25AE], false⟩, ⟨"mcomma", [0x2A29], false⟩,
    ⟨"mcy", [0x43C], false⟩, ⟨"mdash", [0x2014], false⟩, ⟨"measuredangle", [0x2221], false⟩,
    ⟨"mfr", [0x1D52A], false⟩, ⟨"mho", [0x2127], false⟩, ⟨"micro", [0xB5], true⟩,
    ⟨"mid", [0x2223], false⟩, ⟨"midast", [0x2A], false⟩, ⟨"midcir", [0x2AF0], false⟩,
    ⟨"middot", [0xB7], true⟩, ⟨"minus", [0x2212], false⟩, ⟨"minusb", [0x229F], false⟩,
    ⟨"minusd", [0x2238], false⟩, ⟨"minusdu", [0x2A2A], false⟩, ⟨"mlcp", [0x2ADB], false⟩,
    ⟨"mldr", [0x2026], false⟩, ⟨"mnplus", [0x2213], false⟩, ⟨"models", [0x22A7], false⟩,
    ⟨"mopf", [0x1D55E], false⟩, ⟨"mp", [0x2213], false⟩, ⟨"mscr", [0x1D4C2], false⟩,
    ⟨"mstpos", [0x223E], false⟩, ⟨"mu", [0x3BC], false⟩, ⟨"multimap", [0x22B8], false⟩,
    ⟨"mumap", [0x22B8], false⟩]

def smallNamesN : List CharacterName :=
  [⟨"nGg", [0x22D9, 0x338], false⟩, ⟨"nGt", [0x226B, 0x20D2], false⟩,
    ⟨"nGtv", [0x226B, 0x338], false⟩, ⟨"nLeftarrow", [0x21CD], false⟩,
    ⟨"nLeftrightarrow", [0x21CE], false⟩, ⟨"nLl", [0x22D8, 0x338], false⟩,
    ⟨"nLt", [0x226A, 0x20D2], false⟩, ⟨"nLtv", [0x226A, 0x338], false⟩,
    ⟨"nRightarrow", [0x21CF], false⟩, ⟨"nVDash", [0x22AF], false⟩, ⟨"nVdash", [0x22AE], false⟩,
    ⟨"nabla", [0x2207], false⟩, ⟨"nacute", [0x144], false⟩, ⟨"nang", [0x2220, 0x20D2], false⟩,
    ⟨"nap", [0x2249], false⟩, ⟨"napE", [0x2A70, 0x338], false⟩, ⟨"napid", [0x224B, 0x338], false⟩,
    ⟨"napos", [0x149], false⟩, ⟨"napprox", [0x2249], false⟩, ⟨"natur", [0x266E], false⟩,
    ⟨"natural", [0x266E], false⟩, ⟨"naturals", [0x2115], false⟩, ⟨"nbsp", [0xA0], true⟩,
    ⟨"nbump", [0x224E, 0x338], false⟩, ⟨"nbumpe", [0x224F, 0x338], false⟩,
    ⟨"ncap", [0x2A43], false⟩, ⟨"ncaron", [0x148], false⟩, ⟨"ncedil", [0x146], false⟩,
    ⟨"ncong", [0x2247], false⟩, ⟨"ncongdot", [0x2A6D, 0x338], false⟩, ⟨"ncup", [0x2A42], false⟩,
    ⟨"ncy", [0x43D], false⟩, ⟨"ndash", [0x2013], false⟩, ⟨"ne", [0x2260], false⟩,
    ⟨"neArr", [0x21D7], false⟩, ⟨"nearhk", [0x2924], false⟩, ⟨"nearr", [0x2197], false⟩,
    ⟨"nearrow", [0x2197], false⟩, ⟨"nedot", [0x2250, 0x338], false⟩, ⟨"nequiv", [0x2262], false⟩,
    ⟨"nesear", [0x2928], false⟩, ⟨"nesim", [0x2242, 0x338], false⟩, ⟨"nexist", [0x2204], false⟩,
    ⟨"nexists", [0x2204], false⟩, ⟨"nfr", [0x1D52B], false⟩, ⟨"ngE", [0x2267, 0x338], false⟩,
    ⟨"nge", [0x2271], false⟩, ⟨"ngeq", [0x2271], false⟩, ⟨"ngeqq", [0x2267, 0x338], false⟩,
    ⟨"ngeqslant", [0x2A7E, 0x338], false⟩, ⟨"nges", [0x2A7E, 0x338], false⟩,
    ⟨"ngsim", [0x2275], false⟩, ⟨"ngt", [0x226F], false⟩, ⟨"ngtr", [0x226F], false⟩,
    ⟨"nhArr", [0x21CE], false⟩, ⟨"nharr", [0x21AE], false⟩, ⟨"nhpar", [0x2AF2], false⟩,
    ⟨"ni", [0x220B], false⟩, ⟨"nis", [0x22FC], false⟩, ⟨"nisd", [0x22FA], false⟩,
    ⟨"niv", [0x220B], false⟩, ⟨"njcy", [0x45A], false⟩, ⟨"nlArr", [0x21CD], false⟩,
    ⟨"nlE", [0x2266, 0x338], false⟩, ⟨"nlarr", [0x219A], false⟩, ⟨"nldr", [0x2025], false⟩,
    ⟨"nle", [0x2270], false⟩, ⟨"nleftarrow", [0x219A], false⟩, ⟨"nleftrightarrow", [0x21AE], false⟩,
    ⟨"nleq", [0x2270], false⟩, ⟨"nleqq", [0x2266, 0x338], false⟩,
    ⟨"nleqslant", [0x2A7D, 0x338], false⟩, ⟨"nles", [0x2A7D, 0x338], false⟩,
    ⟨"nless", [0x226E], false⟩, ⟨"nlsim", [0x2274], false⟩, ⟨"nlt", [0x226E], false⟩,
    ⟨"nltri", [0x22EA], false⟩, ⟨"nltrie", [0x22EC], false⟩, ⟨"nmid", [0x2224], false⟩,
    ⟨"nopf", [0x1D55F], false⟩, ⟨"not", [0xAC], true⟩, ⟨"notin", [0x2209], false⟩,
    ⟨"notinE", [0x22F9, 0x338], false⟩, ⟨"notindot", [0x22F5, 0x338], false⟩,
    ⟨"notinva", [0x2209], false⟩, ⟨"notinvb", [0x22F7], false⟩, ⟨"notinvc", [0x22F6], false⟩,
    ⟨"notni", [0x220C], false⟩, ⟨"notniva", [0x220C], false⟩, ⟨"notnivb", [0x22FE], false⟩,
    ⟨"notnivc", [0x22FD], false⟩, ⟨"npar", [0x2226], false⟩, ⟨"nparallel", [0x2226], false⟩,
    ⟨"nparsl", [0x2AFD, 0x20E5], false⟩, ⟨"npart", [0x2202, 0x338], false⟩,
    ⟨"npolint", [0x2A14], false⟩, ⟨"npr", [0x2280], false⟩, ⟨"nprcue", [0x22E0], false⟩,
    ⟨"npre", [0x2AAF, 0x338], false⟩, ⟨"nprec", [0x2280], false⟩,
    ⟨"npreceq", [0x2AAF, 0x338], false⟩, ⟨"nrArr", [0x21CF], false⟩, ⟨"nrarr", [0x219B], false⟩,
    ⟨"nrarrc", [0x2933, 0x338], false⟩, ⟨"nrarrw", [0x219D, 0x338], false⟩,
    ⟨"nrightarrow", [0x219B], false⟩, ⟨"nrtri", [0x22EB], false⟩, ⟨"nrtrie", [0x22ED], false⟩,
    ⟨"nsc", [0x2281], false⟩, ⟨"nsccue", [0x22E1], false⟩, ⟨"nsce", [0x2AB0, 0x338], false⟩,
    ⟨"nscr", [0x1D4C3], false⟩, ⟨"nshortmid", [0x2224], false⟩, ⟨"nshortparallel", [0x2226], false⟩,
    ⟨"nsim", [0x2241], false⟩, ⟨"nsime", [0x2244], false⟩, ⟨"nsimeq", [0x2244], false⟩,
    ⟨"nsmid", [0x2224], false⟩, ⟨"nspar", [0x2226], false⟩, ⟨"nsqsube", [0x22E2], false⟩,
    ⟨"nsqsupe", [0x22E3], false⟩, ⟨"nsub", [0x2284], false⟩, ⟨"nsubE", [0x2AC5, 0x338], false⟩,
    ⟨"nsube", [0x2288], false⟩, ⟨"nsubset", [0x2282, 0x20D2], false⟩,
    ⟨"nsubseteq", [0x2288], false⟩, ⟨"nsubseteqq", [0x2AC5, 0x338], false⟩,
    ⟨"nsucc", [0x2281], false⟩, ⟨"nsucceq", [0x2AB0, 0x338], false⟩, ⟨"nsup", [0x2285], false⟩,
    ⟨"nsupE", [0x2AC6, 0x338], false⟩, ⟨"nsupe", [0x2289], false⟩,
    ⟨"nsupset", [0x2283, 0x20D2], false⟩, ⟨"nsupseteq", [0x2289], false⟩,
    ⟨"nsupseteqq", [0x2AC6, 0x338], false⟩, ⟨"ntgl", [0x2279], false⟩, ⟨"ntilde", [0xF1], true⟩,
    ⟨"ntlg", [0x2278], false⟩, ⟨"ntriangleleft", [0x22EA], false⟩,
    ⟨"ntrianglelefteq", [0x22EC], false⟩, ⟨"ntriangleright", [0x22EB], false⟩,
    ⟨"ntrianglerighteq", [0x22ED], false⟩, ⟨"nu", [0x3BD], false⟩, ⟨"num", [0x23], false⟩,
    ⟨"numero", [0x2116], false⟩, ⟨"numsp", [0x2007], false⟩, ⟨"nvDash", [0x22AD], false⟩,
    ⟨"nvHarr", [0x2904], false⟩, ⟨"nvap", [0x224D, 0x20D2], false⟩, ⟨"nvdash", [0x22AC], false⟩,
    ⟨"nvge", [0x2265, 0x20D2], false⟩, ⟨"nvgt", [0x3E, 0x20D2], false⟩,
    ⟨"nvinfin", [0x29DE], false⟩, ⟨"nvlArr", [0x2902], false⟩, ⟨"nvle", [0x2264, 0x20D2], false⟩,
    ⟨"nvlt", [0x3C, 0x20D2], false⟩, ⟨"nvltrie", [0x22B4, 0x20D2], false⟩,
    ⟨"nvrArr", [0x2903], false⟩, ⟨"nvrtrie", [0x22B5, 0x20D2], false⟩,
    ⟨"nvsim", [0x223C, 0x20D2], false⟩, ⟨"nwArr", [0x21D6], false⟩, ⟨"nwarhk", [0x2923], false⟩,
    ⟨"nwarr", [0x2196], false⟩, ⟨"nwarrow", [0x2196], false⟩, ⟨"nwnear", [0x2927], false⟩]

def smallNamesOtoQ : List CharacterName :=
  [⟨"oS", [0x24C8], false⟩, ⟨"oacute", [0xF3], true⟩, ⟨"oast", [0x229B], false⟩,
    ⟨"ocir", [0x229A], false⟩, ⟨"ocirc", [0xF4], true⟩, ⟨"ocy", [0x43E], false⟩,
    ⟨"odash", [0x229D], false⟩, ⟨"odblac", [0x151], false⟩, ⟨"odiv", [0x2A38], false⟩,
    ⟨"odot", [0x2299], false⟩, ⟨"odsold", [0x29BC], false⟩, ⟨"oelig", [0x153], false⟩,
    ⟨"ofcir", [0x29BF], false⟩, ⟨"ofr", [0x1D52C], false⟩, ⟨"ogon", [0x2DB], false⟩,
    ⟨"ograve", [0xF2], true⟩, ⟨"ogt", [0x29C1], false⟩, ⟨"ohbar", [0x29B5], false⟩,
    ⟨"ohm", [0x3A9], false⟩, ⟨"oint", [0x222E], false⟩, ⟨"olarr", [0x21BA], false⟩,
    ⟨"olcir", [0x29BE], false⟩, ⟨"olcross", [0x29BB], false⟩, ⟨"oline", [0x203E], false⟩,
    ⟨"olt", [0x29C0], false⟩, ⟨"omacr", [0x14D], false⟩, ⟨"omega", [0x3C9], false⟩,
    ⟨"omicron", [0x3BF], false⟩, ⟨"omid", [0x29B6], false⟩, ⟨"ominus", [0x2296], false⟩,
    ⟨"oopf", [0x1D560], false⟩, ⟨"opar", [0x29B7], false⟩, ⟨"operp", [0x29B9], false⟩,
    ⟨"oplus", [0x2295], false⟩, ⟨"or", [0x2228], false⟩, ⟨"orarr", [0x21BB], false⟩,
    ⟨"ord", [0x2A5D], false⟩, ⟨"order", [0x2134], false⟩, ⟨"orderof", [0x2134], false⟩,
    ⟨"ordf", [0xAA], true⟩, ⟨"ordm", [0xBA], true⟩, ⟨"origof", [0x22B6], false⟩,
    ⟨"oror", [0x2A56], false⟩, ⟨"orslope", [0x2A57], false⟩, ⟨"orv", [0x2A5B], false⟩,
    ⟨"oscr", [0x2134], false⟩, ⟨"oslash", [0xF8], true⟩, ⟨"osol", [0x2298], false⟩,
    ⟨"otilde", [0xF5], true⟩, ⟨"otimes", [0x2297], false⟩, ⟨"otimesas", [0x2A36], false⟩,
    ⟨"ouml", [0xF6], true⟩, ⟨"ovbar", [0x233D], false⟩, ⟨"par", [0x2225], false⟩,
    ⟨"para", [0xB6], true⟩, ⟨"parallel", [0x2225], false⟩, ⟨"parsim", [0x2AF3], false⟩,
    ⟨"parsl", [0x2AFD], false⟩, ⟨"part", [0x2202], false⟩, ⟨"pcy", [0x43F], false⟩,
    ⟨"percnt", [0x25], false⟩, ⟨"period", [0x2E], false⟩, ⟨"permil", [0x2030], false⟩,
    ⟨"perp", [0x22A5], false⟩, ⟨"pertenk", [0x2031], false⟩, ⟨"pfr", [0x1D52D], false⟩,
    ⟨"phi", [0x3C6], false⟩, ⟨"phiv", [0x3D5], false⟩, ⟨"phmmat", [0x2133], false⟩,
    ⟨"phone", [0x260E], false⟩, ⟨"pi", [0x3C0], false⟩, ⟨"pitchfork", [0x22D4], false⟩,
    ⟨"piv", [0x3D6], false⟩, ⟨"planck", [0x210F], false⟩, ⟨"planckh", [0x210E], false⟩,
    ⟨"plankv", [0x210F], false⟩, ⟨"plus", [0x2B], false⟩, ⟨"plusacir", [0x2A23], false⟩,
    ⟨"plusb", [0x229E], false⟩, ⟨"pluscir", [0x2A22], false⟩, ⟨"plusdo", [0x2214], false⟩,
    ⟨"plusdu", [0x2A25], false⟩, ⟨"pluse", [0x2A72], false⟩, ⟨"plusmn", [0xB1], true⟩,
    ⟨"plussim", [0x2A26], false⟩, ⟨"plustwo", [0x2A27], false⟩, ⟨"pm", [0xB1], false⟩,
    ⟨"pointint", [0x2A15], false⟩, ⟨"popf", [0x1D561], false⟩, ⟨"pound", [0xA3], true⟩,
    ⟨"pr", [0x227A], false⟩, ⟨"prE", [0x2AB3], false⟩, ⟨"prap", [0x2AB7], false⟩,
    ⟨"prcue", [0x227C], false⟩, ⟨"pre", [0x2AAF], false⟩, ⟨"prec", [0x227A], false⟩,
    ⟨"precapprox", [0x2AB7], false⟩, ⟨"preccurlyeq", [0x227C], false⟩, ⟨"preceq", [0x2AAF], false⟩,
    ⟨"precnapprox", [0x2AB9], false⟩, ⟨"precneqq", [0x2AB5], false⟩, ⟨"precnsim", [0x22E8], false⟩,
    ⟨"precsim", [0x227E], false⟩, ⟨"prime", [0x2032], false⟩, ⟨"primes", [0x2119], false⟩,
    ⟨"prnE", [0x2AB5], false⟩, ⟨"prnap", [0x2AB9], false⟩, ⟨"prnsim", [0x22E8], false⟩,
    ⟨"prod", [0x220F], false⟩, ⟨"profalar", [0x232E], false⟩, ⟨"profline", [0x2312], false⟩,
    ⟨"profsurf", [0x2313], false⟩, ⟨"prop", [0x221D], false⟩, ⟨"propto", [0x221D], false⟩,
    ⟨"prsim", [0x227E], false⟩, ⟨"prurel", [0x22B0], false⟩, ⟨"pscr", [0x1D4C5], false⟩,
    ⟨"psi", [0x3C8], false⟩, ⟨"puncsp", [0x2008], false⟩, ⟨"qfr", [0x1D52E], false⟩,
    ⟨"qint", [0x2A0C], false⟩, ⟨"qopf", [0x1D562], false⟩, ⟨"qprime", [0x2057], false⟩,
    ⟨"qscr", [0x1D4C6], false⟩, ⟨"quaternions", [0x210D], false⟩, ⟨"quatint", [0x2A16], false⟩,
    ⟨"quest", [0x3F], false⟩, ⟨"questeq", [0x225F], false⟩, ⟨"quot", [0x22], true⟩]

def smallNamesR : List CharacterName :=
  [⟨"rAarr", [0x21DB], false⟩, ⟨"rArr", [0x21D2], false⟩, ⟨"rAtail", [0x291C], false⟩,
    ⟨"rBarr", [0x290F], false⟩, ⟨"rHar", [0x2964], false⟩, ⟨"race", [0x223D, 0x331], false⟩,
    ⟨"racute", [0x155], false⟩, ⟨"radic", [0x221A], false⟩, ⟨"raemptyv", [0x29B3], false⟩,
    ⟨"rang", [0x27E9], false⟩, ⟨"rangd", [0x2992], false⟩, ⟨"range", [0x29A5], false⟩,
    ⟨"rangle", [0x27E9], false⟩, ⟨"raquo", [0xBB], true⟩, ⟨"rarr", [0x2192], false⟩,
    ⟨"rarrap", [0x2975], false⟩, ⟨"rarrb", [0x21E5], false⟩, ⟨"rarrbfs", [0x2920], false⟩,
    ⟨"rarrc", [0x2933], false⟩, ⟨"rarrfs", [0x291E], false⟩, ⟨"rarrhk", [0x21AA], false⟩,
    ⟨"rarrlp", [0x21AC], false⟩, ⟨"rarrpl", [0x2945], false⟩, ⟨"rarrsim", [0x2974], false⟩,
    ⟨"rarrtl", [0x21A3], false⟩, ⟨"rarrw", [0x219D], false⟩, ⟨"ratail", [0x291A], false⟩,
    ⟨"ratio", [0x2236], false⟩, ⟨"rationals", [0x211A], false⟩, ⟨"rbarr", [0x290D], false⟩,
    ⟨"rbbrk", [0x2773], false⟩, ⟨"rbrace", [0x7D], false⟩, ⟨"rbrack", [0x5D], false⟩,
    ⟨"rbrke", [0x298C], false⟩, ⟨"rbrksld", [0x298E], false⟩, ⟨"rbrkslu", [0x2990], false⟩,
    ⟨"rcaron", [0x159], false⟩, ⟨"rcedil", [0x157], false⟩, ⟨"rceil", [0x2309], false⟩,
    ⟨"rcub", [0x7D], false⟩, ⟨"rcy", [0x440], false⟩, ⟨"rdca", [0x2937], false⟩,
    ⟨"rdldhar", [0x2969], false⟩, ⟨"rdquo", [0x201D], false⟩, ⟨"rdquor", [0x201D], false⟩,
    ⟨"rdsh", [0x21B3], false⟩, ⟨"real", [0x211C], false⟩, ⟨"realine", [0x211B], false⟩,
    ⟨"realpart", [0x211C], false⟩, ⟨"reals", [0x211D], false⟩, ⟨"rect", [0x25AD], false⟩,
    ⟨"reg", [0xAE], true⟩, ⟨"rfisht", [0x297D], false⟩, ⟨"rfloor", [0x230B], false⟩,
    ⟨"rfr", [0x1D52F], false⟩, ⟨"rhard", [0x21C1], false⟩, ⟨"rharu", [0x21C0], false⟩,
    ⟨"rharul", [0x296C], false⟩, ⟨"rho", [0x3C1], false⟩, ⟨"rhov", [0x3F1], false⟩,
    ⟨"rightarrow", [0x2192], false⟩, ⟨"rightarrowtail", [0x21A3], false⟩,
    ⟨"rightharpoondown", [0x21C1], false⟩, ⟨"rightharpoonup", [0x21C0], false⟩,
    ⟨"rightleftarrows", [0x21C4], false⟩, ⟨"rightleftharpoons", [0x21CC], false⟩,
    ⟨"rightrightarrows", [0x21C9], false⟩, ⟨"rightsquigarrow", [0x219D], false⟩,
    ⟨"rightthreetimes", [0x22CC], false⟩, ⟨"ring", [0x2DA], false⟩,
    ⟨"risingdotseq", [0x2253], false⟩, ⟨"rlarr", [0x21C4], false⟩, ⟨"rlhar", [0x21CC], false⟩,
    ⟨"rlm", [0x200F], false⟩, ⟨"rmoust", [0x23B1], false⟩, ⟨"rmoustache", [0x23B1], false⟩,
    ⟨"rnmid", [0x2AEE], false⟩, ⟨"roang", [0x27ED], false⟩, ⟨"roarr", [0x21FE], false⟩,
    ⟨"robrk", [0x27E7], false⟩, ⟨"ropar", [0x2986], false⟩, ⟨"ropf", [0x1D563], false⟩,
    ⟨"roplus", [0x2A2E], false⟩, ⟨"rotimes", [0x2A35], false⟩, ⟨"rpar", [0x29], false⟩,
    ⟨"rpargt", [0x2994], false⟩, ⟨"rppolint", [0x2A12], false⟩, ⟨"rrarr", [0x21C9], false⟩,
    ⟨"rsaquo", [0x203A], false⟩, ⟨"rscr", [0x1D4C7], false⟩, ⟨"rsh", [0x21B1], false⟩,
    ⟨"rsqb", [0x5D], false⟩, ⟨"rsquo", [0x2019], false⟩, ⟨"rsquor", [0x2019], false⟩,
    ⟨"rthree", [0x22CC], false⟩, ⟨"rtimes", [0x22CA], false⟩, ⟨"rtri", [0x25B9], false⟩,
    ⟨"rtrie", [0x22B5], false⟩, ⟨"rtrif", [0x25B8], false⟩, ⟨"rtriltri", [0x29CE], false⟩,
    ⟨"ruluhar", [0x2968], false⟩, ⟨"rx", [0x211E], false⟩]

def smallNamesS : List CharacterName :=
  [⟨"sacute", [0x15B], false⟩, ⟨"sbquo", [0x201A], false⟩, ⟨"sc", [0x227B], false⟩,
    ⟨"scE", [0x2AB4], false⟩, ⟨"scap", [0x2AB8], false⟩, ⟨"scaron", [0x161], false⟩,
    ⟨"sccue", [0x227D], false⟩, ⟨"sce", [0x2AB0], false⟩, ⟨"scedil", [0x15F], false⟩,
    ⟨"scirc", [0x15D], false⟩, ⟨"scnE", [0x2AB6], false⟩, ⟨"scnap", [0x2ABA], false⟩,
    ⟨"scnsim", [0x22E9], false⟩, ⟨"scpolint", [0x2A13], false⟩, ⟨"scsim", [0x227F], false⟩,
    ⟨"scy", [0x441], false⟩, ⟨"sdot", [0x22C5], false⟩, ⟨"sdotb", [0x22A1], false⟩,
    ⟨"sdote", [0x2A66], false⟩, ⟨"seArr", [0x21D8], false⟩, ⟨"searhk", [0x2925], false⟩,
    ⟨"searr", [0x2198], false⟩, ⟨"searrow", [0x2198], false⟩, ⟨"sect", [0xA7], true⟩,
    ⟨"semi", [0x3B], false⟩, ⟨"seswar", [0x2929], false⟩, ⟨"setminus", [0x2216], false⟩,
    ⟨"setmn", [0x2216], false⟩, ⟨"sext", [0x2736], false⟩, ⟨"sfr", [0x1D530], false⟩,
    ⟨"sfrown", [0x2322], false⟩, ⟨"sharp", [0x266F], false⟩, ⟨"shchcy", [0x449], false⟩,
    ⟨"shcy", [0x448], false⟩, ⟨"shortmid", [0x2223], false⟩, ⟨"shortparallel", [0x2225], false⟩,
    ⟨"shy", [0xAD], true⟩, ⟨"sigma", [0x3C3], false⟩, ⟨"sigmaf", [0x3C2], false⟩,
    ⟨"sigmav", [0x3C2], false⟩, ⟨"sim", [0x223C], false⟩, ⟨"simdot", [0x2A6A], false⟩,
    ⟨"sime", [0x2243], false⟩, ⟨"simeq", [0x2243], false⟩, ⟨"simg", [0x2A9E], false⟩,
    ⟨"simgE", [0x2AA0], false⟩, ⟨"siml", [0x2A9D], false⟩, ⟨"simlE", [0x2A9F], false⟩,
    ⟨"simne", [0x2246], false⟩, ⟨"simplus", [0x2A24], false⟩, ⟨"simrarr", [0x2972], false⟩,
    ⟨"slarr", [0x2190], false⟩, ⟨"smallsetminus", [0x2216], false⟩, ⟨"smashp", [0x2A33], false⟩,
    ⟨"smeparsl", [0x29E4], false⟩, ⟨"smid", [0x2223], false⟩, ⟨"smile", [0x2323], false⟩,
    ⟨"smt", [0x2AAA], false⟩, ⟨"smte", [0x2AAC], false⟩, ⟨"smtes", [0x2AAC, 0xFE00], false⟩,
    ⟨"softcy", [0x44C], false⟩, ⟨"sol", [0x2F], false⟩, ⟨"solb", [0x29C4], false⟩,
    ⟨"solbar", [0x233F], false⟩, ⟨"sopf", [0x1D564], false⟩, ⟨"spades", [0x2660], false⟩,
    ⟨"spadesuit", [0x2660], false⟩, ⟨"spar", [0x2225], false⟩, ⟨"sqcap", [0x2293], false⟩,
    ⟨"sqcaps", [0x2293, 0xFE00], false⟩, ⟨"sqcup", [0x2294], false⟩,
    ⟨"sqcups", [0x2294, 0xFE00], false⟩, ⟨"sqsub", [0x228F], false⟩, ⟨"sqsube", [0x2291], false⟩,
    ⟨"sqsubset", [0x228F], false⟩, ⟨"sqsubseteq", [0x2291], false⟩, ⟨"sqsup", [0x2290], false⟩,
    ⟨"sqsupe", [0x2292], false⟩, ⟨"sqsupset", [0x2290], false⟩, ⟨"sqsupseteq", [0x2292], false⟩,
    ⟨"squ", [0x25A1], false⟩, ⟨"square", [0x25A1], false⟩, ⟨"squarf", [0x25AA], false⟩,
    ⟨"squf", [0x25AA], false⟩, ⟨"srarr", [0x2192], false⟩, ⟨"sscr", [0x1D4C8], false⟩,
    ⟨"ssetmn", [0x2216], false⟩, ⟨"ssmile", [0x2323], false⟩, ⟨"sstarf", [0x22C6], false⟩,
    ⟨"star", [0x2606], false⟩, ⟨"starf", [0x2605], false⟩, ⟨"straightepsilon", [0x3F5], false⟩,
    ⟨"straightphi", [0x3D5], false⟩, ⟨"strns", [0xAF], false⟩, ⟨"sub", [0x2282], false⟩,
    ⟨"subE", [0x2AC5], false⟩, ⟨"subdot", [0x2ABD], false⟩, ⟨"sube", [0x2286], false⟩,
    ⟨"subedot", [0x2AC3], false⟩, ⟨"submult", [0x2AC1], false⟩, ⟨"subnE", [0x2ACB], false⟩,
    ⟨"subne", [0x228A], false⟩, ⟨"subplus", [0x2ABF], false⟩, ⟨"subrarr", [0x2979], false⟩,
    ⟨"subset", [0x2282], false⟩, ⟨"subseteq", [0x2286], false⟩, ⟨"subseteqq", [0x2AC5], false⟩,
    ⟨"subsetneq", [0x228A], false⟩, ⟨"subsetneqq", [0x2ACB], false⟩, ⟨"subsim", [0x2AC7], false⟩,
    ⟨"subsub", [0x2AD5], false⟩, ⟨"subsup", [0x2AD3], false⟩, ⟨"succ", [0x227B], false⟩,
    ⟨"succapprox", [0x2AB8], false⟩, ⟨"succcurlyeq", [0x227D], false⟩, ⟨"succeq", [0x2AB0], false⟩,
    ⟨"succnapprox", [0x2ABA], false⟩, ⟨"succneqq", [0x2AB6], false⟩, ⟨"succnsim", [0x22E9], false⟩,
    ⟨"succsim", [0x227F], false⟩, ⟨"sum", [0x2211], false⟩, ⟨"sung", [0x266A], false⟩,
    ⟨"sup", [0x2283], false⟩, ⟨"sup1", [0xB9], true⟩, ⟨"sup2", [0xB2], true⟩,
    ⟨"sup3", [0xB3], true⟩, ⟨"supE", [0x2AC6], false⟩, ⟨"supdot", [0x2ABE], false⟩,
    ⟨"supdsub", [0x2AD8], false⟩, ⟨"supe", [0x2287], false⟩, ⟨"supedot", [0x2AC4], false⟩,
    ⟨"suphsol", [0x27C9], false⟩, ⟨"suphsub", [0x2AD7], false⟩, ⟨"suplarr", [0x297B], false⟩,
    ⟨"supmult", [0x2AC2], false⟩, ⟨"supnE", [0x2ACC], false⟩, ⟨"supne", [0x228B], false⟩,
    ⟨"supplus", [0x2AC0], false⟩, ⟨"supset", [0x2283], false⟩, ⟨"supseteq", [0x2287], false⟩,
    ⟨"supseteqq", [0x2AC6], false⟩, ⟨"supsetneq", [0x228B], false⟩, ⟨"supsetneqq", [0x2ACC], false⟩,
    ⟨"supsim", [0x2AC8], false⟩, ⟨"supsub", [0x2AD4], false⟩, ⟨"supsup", [0x2AD6], false⟩,
    ⟨"swArr", [0x21D9], false⟩, ⟨"swarhk", [0x2926], false⟩, ⟨"swarr", [0x2199], false⟩,
    ⟨"swarrow", [0x2199], false⟩, ⟨"swnwar", [0x292A], false⟩, ⟨"szlig", [0xDF], true⟩]

def smallNamesTtoZ : List CharacterName :=
  [⟨"target", [0x2316], false⟩, ⟨"tau", [0x3C4], false⟩, ⟨"tbrk", [0x23B4], false⟩,
    ⟨"tcaron", [0x165], false⟩, ⟨"tcedil", [0x163], false⟩, ⟨"tcy", [0x442], false⟩,
    ⟨"tdot", [0x20DB], false⟩, ⟨"telrec", [0x2315], false⟩, ⟨"tfr", [0x1D531], false⟩,
    ⟨"there4", [0x2234], false⟩, ⟨"therefore", [0x2234], false⟩, ⟨"theta", [0x3B8], false⟩,
    ⟨"thetasym", [0x3D1], false⟩, ⟨"thetav", [0x3D1], false⟩, ⟨"thickapprox", [0x2248], false⟩,
    ⟨"thicksim", [0x223C], false⟩, ⟨"thinsp", [0x2009], false⟩, ⟨"thkap", [0x2248], false⟩,
    ⟨"thksim", [0x223C], false⟩, ⟨"thorn", [0xFE], true⟩, ⟨"tilde", [0x2DC], false⟩,
    ⟨"times", [0xD7], true⟩, ⟨"timesb", [0x22A0], false⟩, ⟨"timesbar", [0x2A31], false⟩,
    ⟨"timesd", [0x2A30], false⟩, ⟨"tint", [0x222D], false⟩, ⟨"toea", [0x2928], false⟩,
    ⟨"top", [0x22A4], false⟩, ⟨"topbot", [0x2336], false⟩, ⟨"topcir", [0x2AF1], false⟩,
    ⟨"topf", [0x1D565], false⟩, ⟨"topfork", [0x2ADA], false⟩, ⟨"tosa", [0x2929], false⟩,
    ⟨"tprime", [0x2034], false⟩, ⟨"trade", [0x2122], false⟩, ⟨"triangle", [0x25B5], false⟩,
    ⟨"triangledown", [0x25BF], false⟩, ⟨"triangleleft", [0x25C3], false⟩,
    ⟨"trianglelefteq", [0x22B4], false⟩, ⟨"triangleq", [0x225C], false⟩,
    ⟨"triangleright", [0x25B9], false⟩, ⟨"trianglerighteq", [0x22B5], false⟩,
    ⟨"tridot", [0x25EC], false⟩, ⟨"trie", [0x225C], false⟩, ⟨"triminus", [0x2A3A], false⟩,
    ⟨"triplus", [0x2A39], false⟩, ⟨"trisb", [0x29CD], false⟩, ⟨"tritime", [0x2A3B], false⟩,
    ⟨"trpezium", [0x23E2], false⟩, ⟨"tscr", [0x1D4C9], false⟩, ⟨"tscy", [0x446], false⟩,
    ⟨"tshcy", [0x45B], false⟩, ⟨"tstrok", [0x167], false⟩, ⟨"twixt", [0x226C], false⟩,
    ⟨"twoheadleftarrow", [0x219E], false⟩, ⟨"twoheadrightarrow", [0x21A0], false⟩,
    ⟨"uArr", [0x21D1], false⟩, ⟨"uHar", [0x2963], false⟩, ⟨"uacute", [0xFA], true⟩,
    ⟨"uarr", [0x2191], false⟩, ⟨"ubrcy", [0x45E], false⟩, ⟨"ubreve", [0x16D], false⟩,
    ⟨"ucirc", [0xFB], true⟩, ⟨"ucy", [0x443], false⟩, ⟨"udarr", [0x21C5], false⟩,
    ⟨"udblac", [0x171], false⟩, ⟨"udhar", [0x296E], false⟩, ⟨"ufisht", [0x297E], false⟩,
    ⟨"ufr", [0x1D532], false⟩, ⟨"ugrave", [0xF9], true⟩, ⟨"uharl", [0x21BF], false⟩,
    ⟨"uharr", [0x21BE], false⟩, ⟨"uhblk", [0x2580], false⟩, ⟨"ulcorn", [0x231C], false⟩,
    ⟨"ulcorner", [0x231C], false⟩, ⟨"ulcrop", [0x230F], false⟩, ⟨"ultri", [0x25F8], false⟩,
    ⟨"umacr", [0x16B], false⟩, ⟨"uml", [0xA8], true⟩, ⟨"uogon", [0x173], false⟩,
    ⟨"uopf", [0x1D566], false⟩, ⟨"uparrow", [0x2191], false⟩, ⟨"updownarrow", [0x2195], false⟩,
    ⟨"upharpoonleft", [0x21BF], false⟩, ⟨"upharpoonright", [0x21BE], false⟩,
    ⟨"uplus", [0x228E], false⟩, ⟨"upsi", [0x3C5], false⟩, ⟨"upsih", [0x3D2], false⟩,
    ⟨"upsilon", [0x3C5], false⟩, ⟨"upuparrows", [0x21C8], false⟩, ⟨"urcorn", [0x231D], false⟩,
    ⟨"urcorner", [0x231D], false⟩, ⟨"urcrop", [0x230E], false⟩, ⟨"uring", [0x16F], false⟩,
    ⟨"urtri", [0x25F9], false⟩, ⟨"uscr", [0x1D4CA], false⟩, ⟨"utdot", [0x22F0], false⟩,
    ⟨"utilde", [0x169], false⟩, ⟨"utri", [0x25B5], false⟩, ⟨"utrif", [0x25B4], false⟩,
    ⟨"uuarr", [0x21C8], false⟩, ⟨"uuml", [0xFC], true⟩, ⟨"uwangle", [0x29A7], false⟩,
    ⟨"vArr", [0x21D5], false⟩, ⟨"vBar", [0x2AE8], false⟩, ⟨"vBarv", [0x2AE9], false⟩,
    ⟨"vDash", [0x22A8], false⟩, ⟨"vangrt", [0x299C], false⟩, ⟨"varepsilon", [0x3F5], false⟩,
    ⟨"varkappa", [0x3F0], false⟩, ⟨"varnothing", [0x2205], false⟩, ⟨"varphi", [0x3D5], false⟩,
    ⟨"varpi", [0x3D6], false⟩, ⟨"varpropto", [0x221D], false⟩, ⟨"varr", [0x2195], false⟩,
    ⟨"varrho", [0x3F1], false⟩, ⟨"varsigma", [0x3C2], false⟩,
    ⟨"varsubsetneq", [0x228A, 0xFE00], false⟩, ⟨"varsubsetneqq", [0x2ACB, 0xFE00], false⟩,
    ⟨"varsupsetneq", [0x228B, 0xFE00], false⟩, ⟨"varsupsetneqq", [0x2ACC, 0xFE00], false⟩,
    ⟨"vartheta", [0x3D1], false⟩, ⟨"vartriangleleft", [0x22B2], false⟩,
    ⟨"vartriangleright", [0x22B3], false⟩, ⟨"vcy", [0x432], false⟩, ⟨"vdash", [0x22A2], false⟩,
    ⟨"vee", [0x2228], false⟩, ⟨"veebar", [0x22BB], false⟩, ⟨"veeeq", [0x225A], false⟩,
    ⟨"vellip", [0x22EE], false⟩, ⟨"verbar", [0x7C], false⟩, ⟨"vert", [0x7C], false⟩,
    ⟨"vfr", [0x1D533], false⟩, ⟨"vltri", [0x22B2], false⟩, ⟨"vnsub", [0x2282, 0x20D2], false⟩,
    ⟨"vnsup", [0x2283, 0x20D2], false⟩, ⟨"vopf", [0x1D567], false⟩, ⟨"vprop", [0x221D], false⟩,
    ⟨"vrtri", [0x22B3], false⟩, ⟨"vscr", [0x1D4CB], false⟩, ⟨"vsubnE", [0x2ACB, 0xFE00], false⟩,
    ⟨"vsubne", [0x228A, 0xFE00], false⟩, ⟨"vsupnE", [0x2ACC, 0xFE00], false⟩,
    ⟨"vsupne", [0x228B, 0xFE00], false⟩, ⟨"vzigzag", [0x299A], false⟩, ⟨"wcirc", [0x175], false⟩,
    ⟨"wedbar", [0x2A5F], false⟩, ⟨"wedge", [0x2227], false⟩, ⟨"wedgeq", [0x2259], false⟩,
    ⟨"weierp", [0x2118], false⟩, ⟨"wfr", [0x1D534], false⟩, ⟨"wopf", [0x1D568], false⟩,
    ⟨"wp", [0x2118], false⟩, ⟨"wr", [0x2240], false⟩, ⟨"wreath", [0x2240], false⟩,
    ⟨"wscr", [0x1D4CC], false⟩, ⟨"xcap", [0x22C2], false⟩, ⟨"xcirc", [0x25EF], false⟩,
    ⟨"xcup", [0x22C3], false⟩, ⟨"xdtri", [0x25BD], false⟩, ⟨"xfr", [0x1D535], false⟩,
    ⟨"xhArr", [0x27FA], false⟩, ⟨"xharr", [0x27F7], false⟩, ⟨"xi", [0x3BE], false⟩,
    ⟨"xlArr", [0x27F8], false⟩, ⟨"xlarr", [0x27F5], false⟩, ⟨"xmap", [0x27FC], false⟩,
    ⟨"xnis", [0x22FB], false⟩, ⟨"xodot", [0x2A00], false⟩, ⟨"xopf", [0x1D569], false⟩,
    ⟨"xoplus", [0x2A01], false⟩, ⟨"xotime", [0x2A02], false⟩, ⟨"xrArr", [0x27F9], false⟩,
    ⟨"xrarr", [0x27F6], false⟩, ⟨"xscr", [0x1D4CD], false⟩, ⟨"xsqcup", [0x2A06], false⟩,
    ⟨"xuplus", [0x2A04], false⟩, ⟨"xutri", [0x25B3], false⟩, ⟨"xvee", [0x22C1], false⟩,
    ⟨"xwedge", [0x22C0], false⟩, ⟨"yacute", [0xFD], true⟩, ⟨"yacy", [0x44F], false⟩,
    ⟨"ycirc", [0x177], false⟩, ⟨"ycy", [0x44B], false⟩, ⟨"yen", [0xA5], true⟩,
    ⟨"yfr", [0x1D536], false⟩, ⟨"yicy", [0x457], false⟩, ⟨"yopf", [0x1D56A], false⟩,
    ⟨"yscr", [0x1D4CE], false⟩, ⟨"yucy", [0x44E], false⟩, ⟨"yuml", [0xFF], true⟩,
    ⟨"zacute", [0x17A], false⟩, ⟨"zcaron", [0x17E], false⟩, ⟨"zcy", [0x437], false⟩,
    ⟨"zdot", [0x17C], false⟩, ⟨"zeetrf", [0x2128], false⟩, ⟨"zeta", [0x3B6], false⟩,
    ⟨"zfr", [0x1D537], false⟩, ⟨"zhcy", [0x436], false⟩, ⟨"zigrarr", [0x21DD], false⟩,
    ⟨"zopf", [0x1D56B], false⟩, ⟨"zscr", [0x1D4CF], false⟩, ⟨"zwj", [0x200D], false⟩,
    ⟨"zwnj", [0x200C], false⟩]

/-- The names by their first letters. -/
def nameGroups : List (List CharacterName) :=
  [capitalNamesAtoD, capitalNamesEtoK, capitalNamesLtoN, capitalNamesOtoR, capitalNamesStoZ,
    smallNamesAtoB, smallNamesCtoD, smallNamesEtoG, smallNamesHtoK, smallNamesLtoM, smallNamesN,
    smallNamesOtoQ, smallNamesR, smallNamesS, smallNamesTtoZ]

/-- All names. -/
def characterNames : List CharacterName :=
  nameGroups.flatten

end Stencil.Html
