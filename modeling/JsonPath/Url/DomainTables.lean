import JsonPath.Unicode.Tables

/-!
How characters are written in the names of domains. A character in none of the tables is
written as itself, if it belongs to a category that names may be made of.
-/

namespace JsonPath.Url

open Unicode (CodeRange)

/-- Characters with an image each: the first and the last of them, their distance, and the
image of the first. The other images are at the same distance. -/
def imageRuns : List (Nat × Nat × Nat × Nat) := [
  (0xC0, 0xD6, 1, 0xE0), (0xD8, 0xDE, 1, 0xF8), (0x100, 0x12E, 2, 0x101), (0x141, 0x147, 2, 0x142),
  (0x14A, 0x176, 2, 0x14B), (0x1CD, 0x1DB, 2, 0x1CE), (0x1DE, 0x1EE, 2, 0x1DF),
  (0x1F8, 0x21E, 2, 0x1F9), (0x222, 0x232, 2, 0x223), (0x246, 0x24E, 2, 0x247),
  (0x391, 0x3A1, 1, 0x3B1), (0x3A3, 0x3AB, 1, 0x3C3), (0x3D8, 0x3EE, 2, 0x3D9),
  (0x400, 0x40F, 1, 0x450), (0x410, 0x42F, 1, 0x430), (0x460, 0x480, 2, 0x461),
  (0x48A, 0x4BE, 2, 0x48B), (0x4C1, 0x4CD, 2, 0x4C2), (0x4D0, 0x52E, 2, 0x4D1),
  (0x531, 0x556, 1, 0x561), (0x10A0, 0x10C5, 1, 0x2D00), (0x13F8, 0x13FD, 1, 0x13F0),
  (0x1C90, 0x1CBA, 1, 0x10D0), (0x1D33, 0x1D3A, 1, 0x67), (0x1DAE, 0x1DB1, 1, 0x272),
  (0x1E00, 0x1E94, 2, 0x1E01), (0x1EA0, 0x1EFE, 2, 0x1EA1), (0x1F08, 0x1F0F, 1, 0x1F00),
  (0x1F18, 0x1F1D, 1, 0x1F10), (0x1F28, 0x1F2F, 1, 0x1F20), (0x1F38, 0x1F3F, 1, 0x1F30),
  (0x1F48, 0x1F4D, 1, 0x1F40), (0x1F59, 0x1F5F, 2, 0x1F51), (0x1F68, 0x1F6F, 1, 0x1F60),
  (0x2074, 0x2079, 1, 0x34), (0x2080, 0x2089, 1, 0x30), (0x2096, 0x2099, 1, 0x6B),
  (0x2135, 0x2138, 1, 0x5D0), (0x2460, 0x2468, 1, 0x31), (0x24B6, 0x24CF, 1, 0x61),
  (0x24D0, 0x24E9, 1, 0x61), (0x2C00, 0x2C2F, 1, 0x2C30), (0x2C80, 0x2CE2, 2, 0x2C81),
  (0x313A, 0x313F, 1, 0x11B0), (0x3145, 0x314E, 1, 0x1109), (0x314F, 0x3163, 1, 0x1161),
  (0x3178, 0x317C, 1, 0x112B), (0x3269, 0x326D, 1, 0x110E), (0x32E4, 0x32E9, 1, 0x30CA),
  (0x32EE, 0x32F2, 1, 0x30DE), (0x32F5, 0x32FA, 1, 0x30E8), (0x32FB, 0x32FE, 1, 0x30EF),
  (0xA640, 0xA66C, 2, 0xA641), (0xA680, 0xA69A, 2, 0xA681), (0xA722, 0xA72E, 2, 0xA723),
  (0xA732, 0xA76E, 2, 0xA733), (0xA77E, 0xA786, 2, 0xA77F), (0xA796, 0xA7A8, 2, 0xA797),
  (0xA7B4, 0xA7C2, 2, 0xA7B5), (0xAB70, 0xABBF, 1, 0x13A0), (0xFE41, 0xFE44, 1, 0x300C),
  (0xFF06, 0xFF0E, 1, 0x26), (0xFF10, 0xFF19, 1, 0x30), (0xFF21, 0xFF3A, 1, 0x61),
  (0xFF3F, 0xFF5B, 1, 0x5F), (0xFF85, 0xFF8A, 1, 0x30CA), (0xFF8F, 0xFF93, 1, 0x30DE),
  (0xFF96, 0xFF9B, 1, 0x30E8), (0xFFAA, 0xFFAF, 1, 0x11B0), (0xFFB5, 0xFFBE, 1, 0x1109),
  (0xFFC2, 0xFFC7, 1, 0x1161), (0xFFCA, 0xFFCF, 1, 0x1167), (0xFFD2, 0xFFD7, 1, 0x116D),
  (0xFFE9, 0xFFEC, 1, 0x2190), (0x10400, 0x10427, 1, 0x10428), (0x104B0, 0x104D3, 1, 0x104D8),
  (0x10570, 0x1057A, 1, 0x10597), (0x1057C, 0x1058A, 1, 0x105A3), (0x1058C, 0x10592, 1, 0x105B3),
  (0x10C80, 0x10CB2, 1, 0x10CC0), (0x10D50, 0x10D65, 1, 0x10D70), (0x118A0, 0x118BF, 1, 0x118C0),
  (0x16E40, 0x16E5F, 1, 0x16E60), (0x1CCD6, 0x1CCEF, 1, 0x61), (0x1CCF0, 0x1CCF9, 1, 0x30),
  (0x1D400, 0x1D419, 1, 0x61), (0x1D41A, 0x1D433, 1, 0x61), (0x1D434, 0x1D44D, 1, 0x61),
  (0x1D44E, 0x1D454, 1, 0x61), (0x1D456, 0x1D467, 1, 0x69), (0x1D468, 0x1D481, 1, 0x61),
  (0x1D482, 0x1D49B, 1, 0x61), (0x1D4A9, 0x1D4AC, 1, 0x6E), (0x1D4AE, 0x1D4B5, 1, 0x73),
  (0x1D4B6, 0x1D4B9, 1, 0x61), (0x1D4BD, 0x1D4C3, 1, 0x68), (0x1D4C5, 0x1D4CF, 1, 0x70),
  (0x1D4D0, 0x1D4E9, 1, 0x61), (0x1D4EA, 0x1D503, 1, 0x61), (0x1D507, 0x1D50A, 1, 0x64),
  (0x1D50D, 0x1D514, 1, 0x6A), (0x1D516, 0x1D51C, 1, 0x73), (0x1D51E, 0x1D537, 1, 0x61),
  (0x1D53B, 0x1D53E, 1, 0x64), (0x1D540, 0x1D544, 1, 0x69), (0x1D54A, 0x1D550, 1, 0x73),
  (0x1D552, 0x1D56B, 1, 0x61), (0x1D56C, 0x1D585, 1, 0x61), (0x1D586, 0x1D59F, 1, 0x61),
  (0x1D5A0, 0x1D5B9, 1, 0x61), (0x1D5BA, 0x1D5D3, 1, 0x61), (0x1D5D4, 0x1D5ED, 1, 0x61),
  (0x1D5EE, 0x1D607, 1, 0x61), (0x1D608, 0x1D621, 1, 0x61), (0x1D622, 0x1D63B, 1, 0x61),
  (0x1D63C, 0x1D655, 1, 0x61), (0x1D656, 0x1D66F, 1, 0x61), (0x1D670, 0x1D689, 1, 0x61),
  (0x1D68A, 0x1D6A3, 1, 0x61), (0x1D6A8, 0x1D6B8, 1, 0x3B1), (0x1D6BA, 0x1D6C0, 1, 0x3C3),
  (0x1D6C2, 0x1D6D2, 1, 0x3B1), (0x1D6D4, 0x1D6DA, 1, 0x3C3), (0x1D6E2, 0x1D6F2, 1, 0x3B1),
  (0x1D6F4, 0x1D6FA, 1, 0x3C3), (0x1D6FC, 0x1D70C, 1, 0x3B1), (0x1D70E, 0x1D714, 1, 0x3C3),
  (0x1D71C, 0x1D72C, 1, 0x3B1), (0x1D72E, 0x1D734, 1, 0x3C3), (0x1D736, 0x1D746, 1, 0x3B1),
  (0x1D748, 0x1D74E, 1, 0x3C3), (0x1D756, 0x1D766, 1, 0x3B1), (0x1D768, 0x1D76E, 1, 0x3C3),
  (0x1D770, 0x1D780, 1, 0x3B1), (0x1D782, 0x1D788, 1, 0x3C3), (0x1D790, 0x1D7A0, 1, 0x3B1),
  (0x1D7A2, 0x1D7A8, 1, 0x3C3), (0x1D7AA, 0x1D7BA, 1, 0x3B1), (0x1D7BC, 0x1D7C2, 1, 0x3C3),
  (0x1D7CE, 0x1D7D7, 1, 0x30), (0x1D7D8, 0x1D7E1, 1, 0x30), (0x1D7E2, 0x1D7EB, 1, 0x30),
  (0x1D7EC, 0x1D7F5, 1, 0x30), (0x1D7F6, 0x1D7FF, 1, 0x30), (0x1E030, 0x1E038, 1, 0x430),
  (0x1E03C, 0x1E046, 1, 0x43E), (0x1E051, 0x1E059, 1, 0x430), (0x1E05F, 0x1E064, 1, 0x443),
  (0x1E900, 0x1E921, 1, 0x1E922), (0x1EE0A, 0x1EE0D, 1, 0x643), (0x1EE2A, 0x1EE2D, 1, 0x643),
  (0x1F130, 0x1F149, 1, 0x61), (0x1FBF0, 0x1FBF9, 1, 0x30)]

/-- The images of characters that follow each other, with spaces between them. -/
def imageBlocks : List (Nat × String) := [
  (0xAA, "a"), (0xB2, "2 3"), (0xB5, "μ"), (0xB9, "1 o"), (0xBC, "1⁄4 1⁄2 3⁄4"),
  (0x130, "i\u0307"), (0x132, "ij ij ĵ"), (0x136, "ķ"), (0x139, "ĺ"), (0x13B, "ļ"), (0x13D, "ľ"),
  (0x13F, "l· l·"), (0x149, "\u02bcn"), (0x178, "ÿ ź"), (0x17B, "ż"), (0x17D, "ž"), (0x17F, "s"),
  (0x181, "ɓ ƃ"), (0x184, "ƅ"), (0x186, "ɔ ƈ"), (0x189, "ɖ ɗ ƌ"), (0x18E, "ǝ ə ɛ ƒ"),
  (0x193, "ɠ ɣ"), (0x196, "ɩ ɨ ƙ"), (0x19C, "ɯ ɲ"), (0x19F, "ɵ ơ"), (0x1A2, "ƣ"), (0x1A4, "ƥ"),
  (0x1A6, "ʀ ƨ"), (0x1A9, "ʃ"), (0x1AC, "ƭ"), (0x1AE, "ʈ ư"), (0x1B1, "ʊ ʋ ƴ"), (0x1B5, "ƶ"),
  (0x1B7, "ʒ ƹ"), (0x1BC, "ƽ"), (0x1C4, "dž dž dž lj lj lj nj nj nj"), (0x1F1, "dz dz dz ǵ"),
  (0x1F6, "ƕ ƿ"), (0x220, "ƞ"), (0x23A, "ⱥ ȼ"), (0x23D, "ƚ ⱦ"), (0x241, "ɂ"), (0x243, "ƀ ʉ ʌ"),
  (0x2B0, "h ɦ j r ɹ ɻ ʁ w y"), (0x2E0, "ɣ l s x ʕ"), (0x340, "\u0300 \u0301"),
  (0x343, "\u0313 \u0308\u0301 ι"), (0x370, "ͱ"), (0x372, "ͳ"), (0x374, "\u02b9"), (0x376, "ͷ"),
  (0x37E, "; ϳ"), (0x386, "ά · έ ή ί"), (0x38C, "ό"), (0x38E, "ύ ώ"), (0x3CF, "ϗ β θ υ ύ ϋ φ π"),
  (0x3F0, "κ ρ σ"), (0x3F4, "θ ε"), (0x3F7, "ϸ"), (0x3F9, "σ ϻ"), (0x3FD, "ͻ ͼ ͽ"), (0x4C0, "ӏ"),
  (0x587, "եւ"), (0x675, "\u0627\u0674 \u0648\u0674 \u06c7\u0674 \u064a\u0674"),
  (0x958, "क\u093c ख\u093c ग\u093c ज\u093c ड\u093c ढ\u093c फ\u093c य\u093c"),
  (0x9DC, "ড\u09bc ঢ\u09bc"), (0x9DF, "য\u09bc"), (0xA33, "ਲ\u0a3c"), (0xA36, "ਸ\u0a3c"),
  (0xA59, "ਖ\u0a3c ਗ\u0a3c ਜ\u0a3c"), (0xA5E, "ਫ\u0a3c"), (0xB5C, "ଡ\u0b3c ଢ\u0b3c"),
  (0xE33, "\u0e4dา"), (0xEB3, "\u0ecdາ"), (0xEDC, "ຫນ ຫມ"), (0xF0C, "་"), (0xF43, "ག\u0fb7"),
  (0xF4D, "ཌ\u0fb7"), (0xF52, "ད\u0fb7"), (0xF57, "བ\u0fb7"), (0xF5C, "ཛ\u0fb7"),
  (0xF69, "ཀ\u0fb5"), (0xF73, "\u0f71\u0f72"),
  (0xF75, "\u0f71\u0f74 \u0fb2\u0f80 \u0fb2\u0f71\u0f80 \u0fb3\u0f80 \u0fb3\u0f71\u0f80"),
  (0xF81, "\u0f71\u0f80"), (0xF93, "\u0f92\u0fb7"), (0xF9D, "\u0f9c\u0fb7"),
  (0xFA2, "\u0fa1\u0fb7"), (0xFA7, "\u0fa6\u0fb7"), (0xFAC, "\u0fab\u0fb7"),
  (0xFB9, "\u0f90\u0fb5"), (0x10C7, "ⴧ"), (0x10CD, "ⴭ"), (0x10FC, "ნ"),
  (0x1C80, "в д о с т т ъ ѣ ꙋ \u1c8a"), (0x1CBD, "ჽ ჾ ჿ"), (0x1D2C, "a æ b"), (0x1D30, "d e ǝ"),
  (0x1D3C, "o ȣ p r t u w a ɐ ɑ ᴂ b d e ə ɛ ɜ g"),
  (0x1D4F, "k m ŋ o ɔ ᴖ ᴗ p t u ᴝ ɯ v ᴥ β γ δ φ χ i r u v β γ ρ φ χ"), (0x1D78, "н"),
  (0x1D9B, "ɒ c ɕ ð ɜ f ɟ ɡ ɥ ɨ ɩ ɪ ᵻ ʝ ɭ ᶅ ʟ ɱ ɰ"), (0x1DB2, "ɸ ʂ ʃ ƫ ʉ ʊ ᴜ ʋ ʌ z ʐ ʑ ʒ θ"),
  (0x1E9A, "a\u02be ṡ"), (0x1E9E, "ß"), (0x1F71, "ά"), (0x1F73, "έ"), (0x1F75, "ή"), (0x1F77, "ί"),
  (0x1F79, "ό"), (0x1F7B, "ύ"), (0x1F7D, "ώ"),
  (0x1F80, "ἀι ἁι ἂι ἃι ἄι ἅι ἆι ἇι ἀι ἁι ἂι ἃι ἄι ἅι ἆι ἇι ἠι ἡι ἢι ἣι ἤι ἥι ἦι ἧι ἠι ἡι ἢι ἣι"),
  (0x1F9C, "ἤι ἥι ἦι ἧι ὠι ὡι ὢι ὣι ὤι ὥι ὦι ὧι ὠι ὡι ὢι ὣι ὤι ὥι ὦι ὧι"), (0x1FB2, "ὰι αι άι"),
  (0x1FB7, "ᾶι ᾰ ᾱ ὰ ά αι"), (0x1FBE, "ι"), (0x1FC2, "ὴι ηι ήι"), (0x1FC7, "ῆι ὲ έ ὴ ή ηι"),
  (0x1FD3, "ΐ"), (0x1FD8, "ῐ ῑ ὶ ί"), (0x1FE3, "ΰ"), (0x1FE8, "ῠ ῡ ὺ ύ ῥ"), (0x1FEF, "\x60"),
  (0x1FF2, "ὼι ωι ώι"), (0x1FF7, "ῶι ὸ ό ὼ ώ ωι"), (0x2011, "‐"), (0x2033, "′′ ′′′"),
  (0x2036, "‵‵ ‵‵‵"), (0x203C, "!!"), (0x2057, "′′′′"), (0x2070, "0 i"), (0x207A, "+ − = ( ) n"),
  (0x208A, "+ − = ( )"), (0x2090, "a e o x ə h"), (0x209A, "p s t"), (0x20A8, "rs"),
  (0x2102, "c °c"), (0x2107, "ɛ"), (0x2109, "°f g h h h h ħ i i l l"), (0x2115, "n no"),
  (0x2119, "p q r r r"), (0x2120, "sm tel tm"), (0x2124, "z"), (0x2126, "ω"), (0x2128, "z"),
  (0x212A, "k å b c"), (0x212F, "e e f ⅎ m o"), (0x2139, "i"), (0x213B, "fax π γ γ π ∑"),
  (0x2145, "d d e i j"),
  (0x2150, "1⁄7 1⁄9 1⁄10 1⁄3 2⁄3 1⁄5 2⁄5 3⁄5 4⁄5 1⁄6 5⁄6 1⁄8 3⁄8 5⁄8 7⁄8 1⁄ i ii iii iv v vi vii"),
  (0x2167, "viii ix x xi xii l c d m i ii iii iv v vi vii viii ix x xi xii l c d m"),
  (0x2183, "ↄ"), (0x2189, "0⁄3"), (0x222C, "∫∫ ∫∫∫"), (0x222F, "∮∮ ∮∮∮"), (0x2329, "〈 〉"),
  (0x2469, "10 11 12 13 14 15 16 17 18 19 20 (1) (2) (3) (4) (5) (6) (7) (8) (9) (10) (11) (12)"),
  (0x2480, "(13) (14) (15) (16) (17) (18) (19) (20)"),
  (0x249C, "(a) (b) (c) (d) (e) (f) (g) (h) (i) (j) (k) (l) (m) (n) (o) (p) (q) (r) (s) (t) (u)"),
  (0x24B1, "(v) (w) (x) (y) (z)"), (0x24EA, "0"), (0x2A0C, "∫∫∫∫"), (0x2A75, "== ==="),
  (0x2ADC, "⫝\u0338"), (0x2C60, "ⱡ"), (0x2C62, "ɫ ᵽ ɽ"), (0x2C67, "ⱨ"), (0x2C69, "ⱪ"),
  (0x2C6B, "ⱬ"), (0x2C6D, "ɑ ɱ ɐ ɒ"), (0x2C72, "ⱳ"), (0x2C75, "ⱶ"), (0x2C7C, "j v ȿ ɀ"),
  (0x2CEB, "ⳬ"), (0x2CED, "ⳮ"), (0x2CF2, "ⳳ"), (0x2D6F, "ⵡ"), (0x2E9F, "母"), (0x2EF3, "龟"),
  (0x2F00, "一 丨 丶 丿 乙 亅 二 亠 人 儿 入 八 冂 冖 冫 几 凵 刀 力 勹 匕 匚 匸 十 卜 卩 厂 厶 又 口 囗 土 士 夂 夊 夕 大 女 子 宀 寸 小"),
  (0x2F2A, "尢 尸 屮 山 巛 工 己 巾 干 幺 广 廴 廾 弋 弓 彐 彡 彳 心 戈 戶 手 支 攴 文 斗 斤 方 无 日 曰 月 木 欠 止 歹 殳 毋 比 毛 氏 气"),
  (0x2F54, "水 火 爪 父 爻 爿 片 牙 牛 犬 玄 玉 瓜 瓦 甘 生 用 田 疋 疒 癶 白 皮 皿 目 矛 矢 石 示 禸 禾 穴 立 竹 米 糸 缶 网 羊 羽 老 而"),
  (0x2F7E, "耒 耳 聿 肉 臣 自 至 臼 舌 舛 舟 艮 色 艸 虍 虫 血 行 衣 襾 見 角 言 谷 豆 豕 豸 貝 赤 走 足 身 車 辛 辰 辵 邑 酉 釆 里 金 長"),
  (0x2FA8, "門 阜 隶 隹 雨 靑 非 面 革 韋 韭 音 頁 風 飛 食 首 香 馬 骨 高 髟 鬥 鬯 鬲 鬼 魚 鳥 鹵 鹿 麥 麻 黃 黍 黑 黹 黽 鼎 鼓 鼠 鼻 齊"),
  (0x2FD2, "齒 龍 龜 龠"), (0x3002, "."), (0x3036, "〒"), (0x3038, "十 卄 卅"), (0x309F, "より"),
  (0x30FF, "コト"), (0x3131, "ᄀ ᄁ ᆪ ᄂ ᆬ ᆭ ᄃ ᄄ ᄅ"), (0x3140, "ᄚ ᄆ ᄇ ᄈ ᄡ"),
  (0x3165, "ᄔ ᄕ ᇇ ᇈ ᇌ ᇎ ᇓ ᇗ ᇙ ᄜ ᇝ ᇟ ᄝ ᄞ ᄠ ᄢ ᄣ ᄧ ᄩ"),
  (0x317D, "ᄲ ᄶ ᅀ ᅇ ᅌ ᇱ ᇲ ᅗ ᅘ ᅙ ᆄ ᆅ ᆈ ᆑ ᆒ ᆔ ᆞ ᆡ"), (0x3192, "一 二 三 四 上 中 下 甲 乙 丙 丁 天 地 人"),
  (0x3200, "(ᄀ) (ᄂ) (ᄃ) (ᄅ) (ᄆ) (ᄇ) (ᄉ) (ᄋ) (ᄌ) (ᄎ) (ᄏ) (ᄐ) (ᄑ) (ᄒ) (가) (나) (다) (라) (마) (바) (사)"),
  (0x3215, "(아) (자) (차) (카) (타) (파) (하) (주) (오전) (오후)"),
  (0x3220, "(一) (二) (三) (四) (五) (六) (七) (八) (九) (十) (月) (火) (水) (木) (金) (土) (日) (株) (有) (社) (名)"),
  (0x3235, "(特) (財) (祝) (労) (代) (呼) (学) (監) (企) (資) (協) (祭) (休) (自) (至) 問 幼 文 箏"),
  (0x3250, "pte 21 22 23 24 25 26 27 28 29 30 31 32 33 34 35 ᄀ ᄂ ᄃ ᄅ ᄆ ᄇ ᄉ ᄋ ᄌ"),
  (0x326E, "가 나 다 라 마 바 사 아 자 차 카 타 파 하 참고 주의 우"),
  (0x3280, "一 二 三 四 五 六 七 八 九 十 月 火 水 木 金 土 日 株 有 社 名 特 財 祝 労 秘 男 女 適 優 印 注 項 休 写 正 上 中 下 左 右 医"),
  (0x32AA, "宗 学 監 企 資 協 夜 36 37 38 39 40 41 42 43 44 45 46 47 48 49 50 1月 2月 3月 4月 5月 6月 7月 8月"),
  (0x32C8, "9月 10月 11月 12月 hg erg ev ltd ア イ ウ エ オ カ キ ク ケ コ サ シ ス セ ソ タ チ ツ テ ト"),
  (0x32EA, "ヒ フ ヘ ホ"), (0x32F3, "ヤ ユ"),
  (0x32FF, "令和 アパ\u30fcト アルファ アンペア ア\u30fcル イニング インチ ウォン エスク\u30fcド エ\u30fcカ\u30fc オンス オ\u30fcム"),
  (0x330B, "カイリ カラット カロリ\u30fc ガロン ガンマ ギガ ギニ\u30fc キュリ\u30fc ギルダ\u30fc キロ キログラム キロメ\u30fcトル"),
  (0x3317, "キロワット グラム グラムトン クルゼイロ クロ\u30fcネ ケ\u30fcス コルナ コ\u30fcポ サイクル サンチ\u30fcム シリング センチ セント"),
  (0x3324, "ダ\u30fcス デシ ドル トン ナノ ノット ハイツ パ\u30fcセント パ\u30fcツ バ\u30fcレル ピアストル ピクル ピコ ビル ファラッド"),
  (0x3333, "フィ\u30fcト ブッシェル フラン ヘクタ\u30fcル ペソ ペニヒ ヘルツ ペンス ペ\u30fcジ ベ\u30fcタ ポイント ボルト ホン ポンド"),
  (0x3341, "ホ\u30fcル ホ\u30fcン マイクロ マイル マッハ マルク マンション ミクロン ミリ ミリバ\u30fcル メガ メガトン メ\u30fcトル"),
  (0x334E, "ヤ\u30fcド ヤ\u30fcル ユアン リットル リラ ルピ\u30fc ル\u30fcブル レム レントゲン ワット 0点 1点 2点 3点 4点 5点 6点"),
  (0x335F, "7点 8点 9点 10点 11点 12点 13点 14点 15点 16点 17点 18点 19点 20点 21点 22点 23点 24点 hpa da au bar"),
  (0x3375, "ov pc dm dm2 dm3 iu 平成 昭和 大正 明治 株式会社 pa na μa ma ka kb mb gb cal kcal pf nf μf μg mg"),
  (0x338F, "kg hz khz mhz ghz thz μl ml dl kl fm nm μm mm cm km mm2 cm2 m2 km2 mm3 cm3 m3 km3"),
  (0x33A7, "m∕s m∕s2 pa kpa mpa gpa rad rad∕s rad∕s2 ps ns μs ms pv nv μv mv kv mv pw nw μw mw"),
  (0x33BE, "kw mw kω mω"), (0x33C3, "bq cc cd c∕kg"),
  (0x33C8, "db gy ha hp in kk km kt lm ln log lx mb mil mol ph"),
  (0x33D9, "ppm pr sr sv wb v∕m a∕m 1日 2日 3日 4日 5日 6日 7日 8日 9日 10日 11日 12日 13日 14日 15日 16日 17日"),
  (0x33F1, "18日 19日 20日 21日 22日 23日 24日 25日 26日 27日 28日 29日 30日 31日 gal"), (0xA69C, "ъ ь"),
  (0xA770, "ꝯ"), (0xA779, "ꝺ"), (0xA77B, "ꝼ"), (0xA77D, "ᵹ"), (0xA78B, "ꞌ"), (0xA78D, "ɥ"),
  (0xA790, "ꞑ"), (0xA792, "ꞓ"), (0xA7AA, "ɦ ɜ ɡ ɬ ɪ"), (0xA7B0, "ʞ ʇ ʝ ꭓ"), (0xA7C4, "ꞔ ʂ ᶎ ꟈ"),
  (0xA7C9, "ꟊ"), (0xA7CB, "ɤ \ua7cd"), (0xA7D0, "ꟑ"), (0xA7D6, "ꟗ"), (0xA7D8, "ꟙ"),
  (0xA7DA, "\ua7db"), (0xA7DC, "ƛ"), (0xA7F2, "c f q ꟶ"), (0xA7F8, "ħ œ"), (0xAB5C, "ꜧ ꬷ ɫ ꭒ"),
  (0xAB69, "ʍ"),
  (0xF900, "豈 更 車 賈 滑 串 句 龜 龜 契 金 喇 奈 懶 癩 羅 蘿 螺 裸 邏 樂 洛 烙 珞 落 酪 駱 亂 卵 欄 爛 蘭 鸞 嵐 濫 藍 襤 拉 臘 蠟 廊 朗"),
  (0xF92A, "浪 狼 郎 來 冷 勞 擄 櫓 爐 盧 老 蘆 虜 路 露 魯 鷺 碌 祿 綠 菉 錄 鹿 論 壟 弄 籠 聾 牢 磊 賂 雷 壘 屢 樓 淚 漏 累 縷 陋 勒 肋"),
  (0xF954, "凜 凌 稜 綾 菱 陵 讀 拏 樂 諾 丹 寧 怒 率 異 北 磻 便 復 不 泌 數 索 參 塞 省 葉 說 殺 辰 沈 拾 若 掠 略 亮 兩 凉 梁 糧 良 諒"),
  (0xF97E, "量 勵 呂 女 廬 旅 濾 礪 閭 驪 麗 黎 力 曆 歷 轢 年 憐 戀 撚 漣 煉 璉 秊 練 聯 輦 蓮 連 鍊 列 劣 咽 烈 裂 說 廉 念 捻 殮 簾 獵"),
  (0xF9A8, "令 囹 寧 嶺 怜 玲 瑩 羚 聆 鈴 零 靈 領 例 禮 醴 隸 惡 了 僚 寮 尿 料 樂 燎 療 蓼 遼 龍 暈 阮 劉 杻 柳 流 溜 琉 留 硫 紐 類 六"),
  (0xF9D2, "戮 陸 倫 崙 淪 輪 律 慄 栗 率 隆 利 吏 履 易 李 梨 泥 理 痢 罹 裏 裡 里 離 匿 溺 吝 燐 璘 藺 隣 鱗 麟 林 淋 臨 立 笠 粒 狀 炙"),
  (0xF9FC, "識 什 茶 刺 切 度 拓 糖 宅 洞 暴 輻 行 降 見 廓 兀 嗀"), (0xFA10, "塚"), (0xFA12, "晴"),
  (0xFA15, "凞 猪 益 礼 神 祥 福 靖 精 羽"), (0xFA20, "蘒"), (0xFA22, "諸"), (0xFA25, "逸 都"),
  (0xFA2A, "飯 飼 館 鶴 郞 隷 侮 僧 免 勉 勤 卑 喝 嘆 器 塀 墨 層 屮 悔 慨 憎 懲 敏 既 暑 梅 海 渚 漢 煮 爫 琢 碑 社 祉 祈 祐 祖 祝 禍 禎"),
  (0xFA54, "穀 突 節 練 縉 繁 署 者 臭 艹 艹 著 褐 視 謁 謹 賓 贈 辶 逸 難 響 頻 恵 𤋮 舘"),
  (0xFA70, "並 况 全 侀 充 冀 勇 勺 喝 啕 喙 嗢 塚 墳 奄 奔 婢 嬨 廒 廙 彩 徭 惘 慎 愈 憎 慠 懲 戴 揄 搜 摒 敖 晴 朗 望 杖 歹 殺 流 滛 滋"),
  (0xFA9A, "漢 瀞 煮 瞧 爵 犯 猪 瑱 甆 画 瘝 瘟 益 盛 直 睊 着 磌 窱 節 类 絛 練 缾 者 荒 華 蝹 襁 覆 視 調 諸 請 謁 諾 諭 謹 變 贈 輸 遲"),
  (0xFAC4, "醙 鉶 陼 難 靖 韛 響 頋 頻 鬒 龜 𢡊 𢡄 𣏕 㮝 䀘 䀹 𥉉 𥳐 𧻓 齃 龎"), (0xFB00, "ff fi fl ffi ffl st st"),
  (0xFB13, "մն մե մի վն մխ"), (0xFB1D, "\u05d9\u05b4"),
  (0xFB1F, "\u05f2\u05b7 \u05e2 \u05d0 \u05d3 \u05d4 \u05db \u05dc \u05dd \u05e8 \u05ea +"),
  (0xFB2A, "\u05e9\u05c1 \u05e9\u05c2 \u05e9\u05bc\u05c1 \u05e9\u05bc\u05c2 \u05d0\u05b7"),
  (0xFB2F, "\u05d0\u05b8 \u05d0\u05bc \u05d1\u05bc \u05d2\u05bc \u05d3\u05bc \u05d4\u05bc"),
  (0xFB35, "\u05d5\u05bc \u05d6\u05bc"),
  (0xFB38, "\u05d8\u05bc \u05d9\u05bc \u05da\u05bc \u05db\u05bc \u05dc\u05bc"),
  (0xFB3E, "\u05de\u05bc"), (0xFB40, "\u05e0\u05bc \u05e1\u05bc"),
  (0xFB43, "\u05e3\u05bc \u05e4\u05bc"),
  (0xFB46, "\u05e6\u05bc \u05e7\u05bc \u05e8\u05bc \u05e9\u05bc \u05ea\u05bc \u05d5\u05b9"),
  (0xFB4C, "\u05d1\u05bf \u05db\u05bf \u05e4\u05bf \u05d0\u05dc \u0671 \u0671 \u067b \u067b"),
  (0xFB54, "\u067b \u067b \u067e \u067e \u067e \u067e \u0680 \u0680 \u0680 \u0680 \u067a \u067a"),
  (0xFB60, "\u067a \u067a \u067f \u067f \u067f \u067f \u0679 \u0679 \u0679 \u0679 \u06a4 \u06a4"),
  (0xFB6C, "\u06a4 \u06a4 \u06a6 \u06a6 \u06a6 \u06a6 \u0684 \u0684 \u0684 \u0684 \u0683 \u0683"),
  (0xFB78, "\u0683 \u0683 \u0686 \u0686 \u0686 \u0686 \u0687 \u0687 \u0687 \u0687 \u068d \u068d"),
  (0xFB84, "\u068c \u068c \u068e \u068e \u0688 \u0688 \u0698 \u0698 \u0691 \u0691 \u06a9 \u06a9"),
  (0xFB90, "\u06a9 \u06a9 \u06af \u06af \u06af \u06af \u06b3 \u06b3 \u06b3 \u06b3 \u06b1 \u06b1"),
  (0xFB9C, "\u06b1 \u06b1 \u06ba \u06ba \u06bb \u06bb \u06bb \u06bb \u06c0 \u06c0 \u06c1 \u06c1"),
  (0xFBA8, "\u06c1 \u06c1 \u06be \u06be \u06be \u06be \u06d2 \u06d2 \u06d3 \u06d3"),
  (0xFBD3, "\u06ad \u06ad \u06ad \u06ad \u06c7 \u06c7 \u06c6 \u06c6 \u06c8 \u06c8 \u06c7\u0674"),
  (0xFBDE, "\u06cb \u06cb \u06c5 \u06c5 \u06c9 \u06c9 \u06d0 \u06d0 \u06d0 \u06d0 \u0649 \u0649"),
  (0xFBEA, "\u0626\u0627 \u0626\u0627 \u0626\u06d5 \u0626\u06d5 \u0626\u0648 \u0626\u0648"),
  (0xFBF0, "\u0626\u06c7 \u0626\u06c7 \u0626\u06c6 \u0626\u06c6 \u0626\u06c8 \u0626\u06c8"),
  (0xFBF6, "\u0626\u06d0 \u0626\u06d0 \u0626\u06d0 \u0626\u0649 \u0626\u0649 \u0626\u0649 \u06cc"),
  (0xFBFD, "\u06cc \u06cc \u06cc \u0626\u062c \u0626\u062d \u0626\u0645 \u0626\u0649"),
  (0xFC04, "\u0626\u064a \u0628\u062c \u0628\u062d \u0628\u062e \u0628\u0645 \u0628\u0649"),
  (0xFC0A, "\u0628\u064a \u062a\u062c \u062a\u062d \u062a\u062e \u062a\u0645 \u062a\u0649"),
  (0xFC10, "\u062a\u064a \u062b\u062c \u062b\u0645 \u062b\u0649 \u062b\u064a \u062c\u062d"),
  (0xFC16, "\u062c\u0645 \u062d\u062c \u062d\u0645 \u062e\u062c \u062e\u062d \u062e\u0645"),
  (0xFC1C, "\u0633\u062c \u0633\u062d \u0633\u062e \u0633\u0645 \u0635\u062d \u0635\u0645"),
  (0xFC22, "\u0636\u062c \u0636\u062d \u0636\u062e \u0636\u0645 \u0637\u062d \u0637\u0645"),
  (0xFC28, "\u0638\u0645 \u0639\u062c \u0639\u0645 \u063a\u062c \u063a\u0645 \u0641\u062c"),
  (0xFC2E, "\u0641\u062d \u0641\u062e \u0641\u0645 \u0641\u0649 \u0641\u064a \u0642\u062d"),
  (0xFC34, "\u0642\u0645 \u0642\u0649 \u0642\u064a \u0643\u0627 \u0643\u062c \u0643\u062d"),
  (0xFC3A, "\u0643\u062e \u0643\u0644 \u0643\u0645 \u0643\u0649 \u0643\u064a \u0644\u062c"),
  (0xFC40, "\u0644\u062d \u0644\u062e \u0644\u0645 \u0644\u0649 \u0644\u064a \u0645\u062c"),
  (0xFC46, "\u0645\u062d \u0645\u062e \u0645\u0645 \u0645\u0649 \u0645\u064a \u0646\u062c"),
  (0xFC4C, "\u0646\u062d \u0646\u062e \u0646\u0645 \u0646\u0649 \u0646\u064a \u0647\u062c"),
  (0xFC52, "\u0647\u0645 \u0647\u0649 \u0647\u064a \u064a\u062c \u064a\u062d \u064a\u062e"),
  (0xFC58, "\u064a\u0645 \u064a\u0649 \u064a\u064a \u0630\u0670 \u0631\u0670 \u0649\u0670"),
  (0xFC64, "\u0626\u0631 \u0626\u0632 \u0626\u0645 \u0626\u0646 \u0626\u0649 \u0626\u064a"),
  (0xFC6A, "\u0628\u0631 \u0628\u0632 \u0628\u0645 \u0628\u0646 \u0628\u0649 \u0628\u064a"),
  (0xFC70, "\u062a\u0631 \u062a\u0632 \u062a\u0645 \u062a\u0646 \u062a\u0649 \u062a\u064a"),
  (0xFC76, "\u062b\u0631 \u062b\u0632 \u062b\u0645 \u062b\u0646 \u062b\u0649 \u062b\u064a"),
  (0xFC7C, "\u0641\u0649 \u0641\u064a \u0642\u0649 \u0642\u064a \u0643\u0627 \u0643\u0644"),
  (0xFC82, "\u0643\u0645 \u0643\u0649 \u0643\u064a \u0644\u0645 \u0644\u0649 \u0644\u064a"),
  (0xFC88, "\u0645\u0627 \u0645\u0645 \u0646\u0631 \u0646\u0632 \u0646\u0645 \u0646\u0646"),
  (0xFC8E, "\u0646\u0649 \u0646\u064a \u0649\u0670 \u064a\u0631 \u064a\u0632 \u064a\u0645"),
  (0xFC94, "\u064a\u0646 \u064a\u0649 \u064a\u064a \u0626\u062c \u0626\u062d \u0626\u062e"),
  (0xFC9A, "\u0626\u0645 \u0626\u0647 \u0628\u062c \u0628\u062d \u0628\u062e \u0628\u0645"),
  (0xFCA0, "\u0628\u0647 \u062a\u062c \u062a\u062d \u062a\u062e \u062a\u0645 \u062a\u0647"),
  (0xFCA6, "\u062b\u0645 \u062c\u062d \u062c\u0645 \u062d\u062c \u062d\u0645 \u062e\u062c"),
  (0xFCAC, "\u062e\u0645 \u0633\u062c \u0633\u062d \u0633\u062e \u0633\u0645 \u0635\u062d"),
  (0xFCB2, "\u0635\u062e \u0635\u0645 \u0636\u062c \u0636\u062d \u0636\u062e \u0636\u0645"),
  (0xFCB8, "\u0637\u062d \u0638\u0645 \u0639\u062c \u0639\u0645 \u063a\u062c \u063a\u0645"),
  (0xFCBE, "\u0641\u062c \u0641\u062d \u0641\u062e \u0641\u0645 \u0642\u062d \u0642\u0645"),
  (0xFCC4, "\u0643\u062c \u0643\u062d \u0643\u062e \u0643\u0644 \u0643\u0645 \u0644\u062c"),
  (0xFCCA, "\u0644\u062d \u0644\u062e \u0644\u0645 \u0644\u0647 \u0645\u062c \u0645\u062d"),
  (0xFCD0, "\u0645\u062e \u0645\u0645 \u0646\u062c \u0646\u062d \u0646\u062e \u0646\u0645"),
  (0xFCD6, "\u0646\u0647 \u0647\u062c \u0647\u0645 \u0647\u0670 \u064a\u062c \u064a\u062d"),
  (0xFCDC, "\u064a\u062e \u064a\u0645 \u064a\u0647 \u0626\u0645 \u0626\u0647 \u0628\u0645"),
  (0xFCE2, "\u0628\u0647 \u062a\u0645 \u062a\u0647 \u062b\u0645 \u062b\u0647 \u0633\u0645"),
  (0xFCE8, "\u0633\u0647 \u0634\u0645 \u0634\u0647 \u0643\u0644 \u0643\u0645 \u0644\u0645"),
  (0xFCEE, "\u0646\u0645 \u0646\u0647 \u064a\u0645 \u064a\u0647 \u0640\u064e\u0651"),
  (0xFCF3, "\u0640\u064f\u0651 \u0640\u0650\u0651 \u0637\u0649 \u0637\u064a \u0639\u0649"),
  (0xFCF8, "\u0639\u064a \u063a\u0649 \u063a\u064a \u0633\u0649 \u0633\u064a \u0634\u0649"),
  (0xFCFE, "\u0634\u064a \u062d\u0649 \u062d\u064a \u062c\u0649 \u062c\u064a \u062e\u0649"),
  (0xFD04, "\u062e\u064a \u0635\u0649 \u0635\u064a \u0636\u0649 \u0636\u064a \u0634\u062c"),
  (0xFD0A, "\u0634\u062d \u0634\u062e \u0634\u0645 \u0634\u0631 \u0633\u0631 \u0635\u0631"),
  (0xFD10, "\u0636\u0631 \u0637\u0649 \u0637\u064a \u0639\u0649 \u0639\u064a \u063a\u0649"),
  (0xFD16, "\u063a\u064a \u0633\u0649 \u0633\u064a \u0634\u0649 \u0634\u064a \u062d\u0649"),
  (0xFD1C, "\u062d\u064a \u062c\u0649 \u062c\u064a \u062e\u0649 \u062e\u064a \u0635\u0649"),
  (0xFD22, "\u0635\u064a \u0636\u0649 \u0636\u064a \u0634\u062c \u0634\u062d \u0634\u062e"),
  (0xFD28, "\u0634\u0645 \u0634\u0631 \u0633\u0631 \u0635\u0631 \u0636\u0631 \u0634\u062c"),
  (0xFD2E, "\u0634\u062d \u0634\u062e \u0634\u0645 \u0633\u0647 \u0634\u0647 \u0637\u0645"),
  (0xFD34, "\u0633\u062c \u0633\u062d \u0633\u062e \u0634\u062c \u0634\u062d \u0634\u062e"),
  (0xFD3A, "\u0637\u0645 \u0638\u0645 \u0627\u064b \u0627\u064b"),
  (0xFD50, "\u062a\u062c\u0645 \u062a\u062d\u062c \u062a\u062d\u062c \u062a\u062d\u0645"),
  (0xFD54, "\u062a\u062e\u0645 \u062a\u0645\u062c \u062a\u0645\u062d \u062a\u0645\u062e"),
  (0xFD58, "\u062c\u0645\u062d \u062c\u0645\u062d \u062d\u0645\u064a \u062d\u0645\u0649"),
  (0xFD5C, "\u0633\u062d\u062c \u0633\u062c\u062d \u0633\u062c\u0649 \u0633\u0645\u062d"),
  (0xFD60, "\u0633\u0645\u062d \u0633\u0645\u062c \u0633\u0645\u0645 \u0633\u0645\u0645"),
  (0xFD64, "\u0635\u062d\u062d \u0635\u062d\u062d \u0635\u0645\u0645 \u0634\u062d\u0645"),
  (0xFD68, "\u0634\u062d\u0645 \u0634\u062c\u064a \u0634\u0645\u062e \u0634\u0645\u062e"),
  (0xFD6C, "\u0634\u0645\u0645 \u0634\u0645\u0645 \u0636\u062d\u0649 \u0636\u062e\u0645"),
  (0xFD70, "\u0636\u062e\u0645 \u0637\u0645\u062d \u0637\u0645\u062d \u0637\u0645\u0645"),
  (0xFD74, "\u0637\u0645\u064a \u0639\u062c\u0645 \u0639\u0645\u0645 \u0639\u0645\u0645"),
  (0xFD78, "\u0639\u0645\u0649 \u063a\u0645\u0645 \u063a\u0645\u064a \u063a\u0645\u0649"),
  (0xFD7C, "\u0641\u062e\u0645 \u0641\u062e\u0645 \u0642\u0645\u062d \u0642\u0645\u0645"),
  (0xFD80, "\u0644\u062d\u0645 \u0644\u062d\u064a \u0644\u062d\u0649 \u0644\u062c\u062c"),
  (0xFD84, "\u0644\u062c\u062c \u0644\u062e\u0645 \u0644\u062e\u0645 \u0644\u0645\u062d"),
  (0xFD88, "\u0644\u0645\u062d \u0645\u062d\u062c \u0645\u062d\u0645 \u0645\u062d\u064a"),
  (0xFD8C, "\u0645\u062c\u062d \u0645\u062c\u0645 \u0645\u062e\u062c \u0645\u062e\u0645"),
  (0xFD92, "\u0645\u062c\u062e \u0647\u0645\u062c \u0647\u0645\u0645 \u0646\u062d\u0645"),
  (0xFD96, "\u0646\u062d\u0649 \u0646\u062c\u0645 \u0646\u062c\u0645 \u0646\u062c\u0649"),
  (0xFD9A, "\u0646\u0645\u064a \u0646\u0645\u0649 \u064a\u0645\u0645 \u064a\u0645\u0645"),
  (0xFD9E, "\u0628\u062e\u064a \u062a\u062c\u064a \u062a\u062c\u0649 \u062a\u062e\u064a"),
  (0xFDA2, "\u062a\u062e\u0649 \u062a\u0645\u064a \u062a\u0645\u0649 \u062c\u0645\u064a"),
  (0xFDA6, "\u062c\u062d\u0649 \u062c\u0645\u0649 \u0633\u062e\u0649 \u0635\u062d\u064a"),
  (0xFDAA, "\u0634\u062d\u064a \u0636\u062d\u064a \u0644\u062c\u064a \u0644\u0645\u064a"),
  (0xFDAE, "\u064a\u062d\u064a \u064a\u062c\u064a \u064a\u0645\u064a \u0645\u0645\u064a"),
  (0xFDB2, "\u0642\u0645\u064a \u0646\u062d\u064a \u0642\u0645\u062d \u0644\u062d\u0645"),
  (0xFDB6, "\u0639\u0645\u064a \u0643\u0645\u064a \u0646\u062c\u062d \u0645\u062e\u064a"),
  (0xFDBA, "\u0644\u062c\u0645 \u0643\u0645\u0645 \u0644\u062c\u0645 \u0646\u062c\u062d"),
  (0xFDBE, "\u062c\u062d\u064a \u062d\u062c\u064a \u0645\u062c\u064a \u0641\u0645\u064a"),
  (0xFDC2, "\u0628\u062d\u064a \u0643\u0645\u0645 \u0639\u062c\u0645 \u0635\u0645\u0645"),
  (0xFDC6, "\u0633\u062e\u064a \u0646\u062c\u064a"),
  (0xFDF0, "\u0635\u0644\u06d2 \u0642\u0644\u06d2 \u0627\u0644\u0644\u0647"),
  (0xFDF3, "\u0627\u0643\u0628\u0631 \u0645\u062d\u0645\u062f \u0635\u0644\u0639\u0645"),
  (0xFDF6, "\u0631\u0633\u0648\u0644 \u0639\u0644\u064a\u0647 \u0648\u0633\u0644\u0645"),
  (0xFDF9, "\u0635\u0644\u0649"), (0xFDFC, "\u0631\u06cc\u0627\u0644"), (0xFE10, ", 、"),
  (0xFE14, "; !"), (0xFE17, "〖 〗"), (0xFE31, "— – _ _ ( ) \x7b \x7d 〔 〕 【 】 《 》 〈 〉"),
  (0xFE4D, "_ _ _ , 、"), (0xFE54, ";"), (0xFE57, "! — ( ) \x7b \x7d 〔 〕"), (0xFE60, "& * + -"),
  (0xFE66, "="), (0xFE69, "$"), (0xFE71, "\u0640\u064b"), (0xFE77, "\u0640\u064e"),
  (0xFE79, "\u0640\u064f"), (0xFE7B, "\u0640\u0650"), (0xFE7D, "\u0640\u0651"),
  (0xFE7F, "\u0640\u0652 \u0621 \u0622 \u0622 \u0623 \u0623 \u0624 \u0624 \u0625 \u0625 \u0626"),
  (0xFE8A, "\u0626 \u0626 \u0626 \u0627 \u0627 \u0628 \u0628 \u0628 \u0628 \u0629 \u0629 \u062a"),
  (0xFE96, "\u062a \u062a \u062a \u062b \u062b \u062b \u062b \u062c \u062c \u062c \u062c \u062d"),
  (0xFEA2, "\u062d \u062d \u062d \u062e \u062e \u062e \u062e \u062f \u062f \u0630 \u0630 \u0631"),
  (0xFEAE, "\u0631 \u0632 \u0632 \u0633 \u0633 \u0633 \u0633 \u0634 \u0634 \u0634 \u0634 \u0635"),
  (0xFEBA, "\u0635 \u0635 \u0635 \u0636 \u0636 \u0636 \u0636 \u0637 \u0637 \u0637 \u0637 \u0638"),
  (0xFEC6, "\u0638 \u0638 \u0638 \u0639 \u0639 \u0639 \u0639 \u063a \u063a \u063a \u063a \u0641"),
  (0xFED2, "\u0641 \u0641 \u0641 \u0642 \u0642 \u0642 \u0642 \u0643 \u0643 \u0643 \u0643 \u0644"),
  (0xFEDE, "\u0644 \u0644 \u0644 \u0645 \u0645 \u0645 \u0645 \u0646 \u0646 \u0646 \u0646 \u0647"),
  (0xFEEA, "\u0647 \u0647 \u0647 \u0648 \u0648 \u0649 \u0649 \u064a \u064a \u064a \u064a"),
  (0xFEF5, "\u0644\u0622 \u0644\u0622 \u0644\u0623 \u0644\u0623 \u0644\u0625 \u0644\u0625"),
  (0xFEFB, "\u0644\u0627 \u0644\u0627"), (0xFF01, "! \""), (0xFF04, "$"), (0xFF1B, ";"),
  (0xFF1D, "="),
  (0xFF5D, "\x7d ~ ⦅ ⦆ . 「 」 、 ・ ヲ ァ ィ ゥ ェ ォ ャ ュ ョ ッ \u30fc ア イ ウ エ オ カ キ ク ケ コ サ シ ス セ ソ タ チ ツ"),
  (0xFF83, "テ ト"), (0xFF8B, "ヒ フ ヘ ホ"), (0xFF94, "ヤ ユ"), (0xFF9C, "ワ ン \u3099 \u309a"),
  (0xFFA1, "ᄀ ᄁ ᆪ ᄂ ᆬ ᆭ ᄃ ᄄ ᄅ"), (0xFFB0, "ᄚ ᄆ ᄇ ᄈ ᄡ"), (0xFFDA, "ᅳ ᅴ ᅵ"), (0xFFE0, "¢ £ ¬"),
  (0xFFE4, "¦ ¥ ₩"), (0xFFE8, "│"), (0xFFED, "■ ○"), (0x10594, "𐖻 𐖼"),
  (0x10781, "\u02d0 \u02d1 æ ʙ ɓ"),
  (0x10787, "ʣ ꭦ ʥ ʤ ɖ ɗ ᶑ ɘ ɞ ʩ ɤ ɢ ɠ ʛ ħ ʜ ɧ ʄ ʪ ʫ ɬ 𝼄 ꞎ ɮ 𝼅 ʎ 𝼆 ø ɶ ɷ q ɺ 𝼈 ɽ ɾ ʀ ʨ ʦ ꭧ ʧ ʈ ⱱ"),
  (0x107B2, "ʏ ʡ ʢ ʘ ǀ ǁ ǂ 𝼊 𝼞"), (0x1D15E, "𝅗𝅥 𝅘𝅥 𝅘𝅥𝅮 𝅘𝅥𝅯 𝅘𝅥𝅰 𝅘𝅥𝅱 𝅘𝅥𝅲"),
  (0x1D1BB, "𝆹𝅥 𝆺𝅥 𝆹𝅥𝅮 𝆺𝅥𝅮 𝆹𝅥𝅯 𝆺𝅥𝅯"), (0x1D49C, "a"), (0x1D49E, "c d"), (0x1D4A2, "g"),
  (0x1D4A5, "j k"), (0x1D4BB, "f"), (0x1D504, "a b"), (0x1D538, "a b"), (0x1D546, "o"),
  (0x1D6A4, "ı ȷ"), (0x1D6B9, "θ"), (0x1D6C1, "∇"), (0x1D6D3, "σ"), (0x1D6DB, "∂ ε θ κ φ ρ π"),
  (0x1D6F3, "θ"), (0x1D6FB, "∇"), (0x1D70D, "σ"), (0x1D715, "∂ ε θ κ φ ρ π"), (0x1D72D, "θ"),
  (0x1D735, "∇"), (0x1D747, "σ"), (0x1D74F, "∂ ε θ κ φ ρ π"), (0x1D767, "θ"), (0x1D76F, "∇"),
  (0x1D781, "σ"), (0x1D789, "∂ ε θ κ φ ρ π"), (0x1D7A1, "θ"), (0x1D7A9, "∇"), (0x1D7BB, "σ"),
  (0x1D7C3, "∂ ε θ κ φ ρ π ϝ ϝ"), (0x1E039, "к л м"), (0x1E047, "ы э ю ꚉ ә і ј ө ү ӏ"),
  (0x1E05A, "к л о п с"), (0x1E065, "ъ ы ґ і ѕ џ ҫ ꙑ ұ"), (0x1EE00, "\u0627 \u0628 \u062c \u062f"),
  (0x1EE05, "\u0648 \u0632 \u062d \u0637 \u064a"),
  (0x1EE0E, "\u0633 \u0639 \u0641 \u0635 \u0642 \u0631 \u0634 \u062a \u062b \u062e \u0630 \u0636"),
  (0x1EE1A, "\u0638 \u063a \u066e \u06ba \u06a1 \u066f"), (0x1EE21, "\u0628 \u062c"),
  (0x1EE24, "\u0647"), (0x1EE27, "\u062d"), (0x1EE29, "\u064a"),
  (0x1EE2E, "\u0633 \u0639 \u0641 \u0635 \u0642"), (0x1EE34, "\u0634 \u062a \u062b \u062e"),
  (0x1EE39, "\u0636"), (0x1EE3B, "\u063a"), (0x1EE42, "\u062c"), (0x1EE47, "\u062d"),
  (0x1EE49, "\u064a"), (0x1EE4B, "\u0644"), (0x1EE4D, "\u0646 \u0633 \u0639"),
  (0x1EE51, "\u0635 \u0642"), (0x1EE54, "\u0634"), (0x1EE57, "\u062e"), (0x1EE59, "\u0636"),
  (0x1EE5B, "\u063a"), (0x1EE5D, "\u06ba"), (0x1EE5F, "\u066f"), (0x1EE61, "\u0628 \u062c"),
  (0x1EE64, "\u0647"), (0x1EE67, "\u062d \u0637 \u064a \u0643"),
  (0x1EE6C, "\u0645 \u0646 \u0633 \u0639 \u0641 \u0635 \u0642"),
  (0x1EE74, "\u0634 \u062a \u062b \u062e"), (0x1EE79, "\u0636 \u0638 \u063a \u066e"),
  (0x1EE7E, "\u06a1"),
  (0x1EE80, "\u0627 \u0628 \u062c \u062f \u0647 \u0648 \u0632 \u062d \u0637 \u064a"),
  (0x1EE8B, "\u0644 \u0645 \u0646 \u0633 \u0639 \u0641 \u0635 \u0642 \u0631 \u0634 \u062a \u062b"),
  (0x1EE97, "\u062e \u0630 \u0636 \u0638 \u063a"), (0x1EEA1, "\u0628 \u062c \u062f"),
  (0x1EEA5, "\u0648 \u0632 \u062d \u0637 \u064a"),
  (0x1EEAB, "\u0644 \u0645 \u0646 \u0633 \u0639 \u0641 \u0635 \u0642 \u0631 \u0634 \u062a \u062b"),
  (0x1EEB7, "\u062e \u0630 \u0636 \u0638 \u063a"), (0x1F101, "0, 1, 2, 3, 4, 5, 6, 7, 8, 9,"),
  (0x1F110, "(a) (b) (c) (d) (e) (f) (g) (h) (i) (j) (k) (l) (m) (n) (o) (p) (q) (r) (s) (t) (u)"),
  (0x1F125, "(v) (w) (x) (y) (z) 〔s〕 c r cd wz"), (0x1F14A, "hv mv sd ss ppv wc"),
  (0x1F16A, "mc md mr"), (0x1F190, "dj"), (0x1F200, "ほか ココ サ"),
  (0x1F210, "手 字 双 デ 二 多 解 天 交 映 無 料 前 後 再 新 初 終 生 販 声 吹 演 投 捕 一 三 遊 左 中 右 指 走 打 禁 空 合 満 有 月 申 割"),
  (0x1F23A, "営 配"), (0x1F240, "〔本〕 〔三〕 〔二〕 〔安〕 〔点〕 〔打〕 〔盗〕 〔勝〕 〔敗〕"), (0x1F250, "得 可"),
  (0x2F800, "丽 丸 乁 𠄢 你 侮 侻 倂 偺 備 僧 像 㒞 𠘺 免 兔 兤 具 𠔜 㒹 內 再 𠕋 冗 冤 仌 冬 况 𩇟 凵 刃 㓟 刻 剆 割 剷 㔕 勇 勉 勤 勺 包"),
  (0x2F82A, "匆 北 卉 卑 博 即 卽 卿 卿 卿 𠨬 灰 及 叟 𠭣 叫 叱 吆 咞 吸 呈 周 咢 哶 唐 啓 啣 善 善 喙 喫 喳 嗂 圖 嘆 圗 噑 噴 切 壮 城 埴"),
  (0x2F854, "堍 型 堲 報 墬 𡓤 売 壷 夆 多 夢 奢 𡚨 𡛪 姬 娛 娧 姘 婦 㛮 㛼 嬈 嬾 嬾 𡧈 寃 寘 寧 寳 𡬘 寿 将 当 尢 㞁 屠 屮 峀 岍 𡷤 嵃 𡷦"),
  (0x2F87E, "嵮 嵫 嵼 巡 巢 㠯 巽 帨 帽 幩 㡢 𢆃 㡼 庰 庳 庶 廊 𪎒 廾 𢌱 𢌱 舁 弢 弢 㣇 𣊸 𦇚 形 彫 㣣 徚 忍 志 忹 悁 㤺 㤜 悔 𢛔 惇 慈 慌"),
  (0x2F8A8, "慎 慌 慺 憎 憲 憤 憯 懞 懲 懶 成 戛 扝 抱 拔 捐 𢬌 挽 拼 捨 掃 揤 𢯱 搢 揅 掩 㨮 摩 摾 撝 摷 㩬 敏 敬 𣀊 旣 書 晉 㬙 暑 㬈 㫤"),
  (0x2F8D2, "冒 冕 最 暜 肭 䏙 朗 望 朡 杞 杓 𣏃 㭉 柺 枅 桒 梅 𣑭 梎 栟 椔 㮝 楂 榣 槪 檨 𣚣 櫛 㰘 次 𣢧 歔 㱎 歲 殟 殺 殻 𣪍 𡴋 𣫺 汎 𣲼"),
  (0x2F8FC, "沿 泍 汧 洖 派 海 流 浩 浸 涅 𣴞 洴 港 湮 㴳 滋 滇 𣻑 淹 潮 𣽞 𣾎 濆 瀹 瀞 瀛 㶖 灊 災 灷 炭 𠔥 煅 𤉣 熜 𤎫 爨 爵 牐 𤘈 犀 犕"),
  (0x2F926, "𤜵 𤠔 獺 王 㺬 玥 㺸 㺸 瑇 瑜 瑱 璅 瓊 㼛 甤 𤰶 甾 𤲒 異 𢆟 瘐 𤾡 𤾸 𥁄 㿼 䀈 直 𥃳 𥃲 𥄙 𥄳 眞 真 真 睊 䀹 瞋 䁆 䂖 𥐝 硎 碌"),
  (0x2F950, "磌 䃣 𥘦 祖 𥚚 𥛅 福 秫 䄯 穀 穊 穏 𥥼 𥪧 𥪧 竮 䈂 𥮫 篆 築 䈧 𥲀 糒 䊠 糨 糣 紀 𥾆 絣 䌁 緇 縂 繅 䌴 𦈨 𦉇 䍙 𦋙 罺 𦌾 羕 翺"),
  (0x2F97A, "者 𦓚 𦔣 聠 𦖨 聰 𣍟 䏕 育 脃 䐋 脾 媵 𦞧 𦞵 𣎓 𣎜 舁 舄 辞 䑫 芑 芋 芝 劳 花 芳 芽 苦 𦬼 若 茝 荣 莭 茣 莽 菧 著 荓 菊 菌 菜"),
  (0x2F9A4, "𦰶 𦵫 𦳕 䔫 蓱 蓳 蔖 𧏊 蕤 𦼬 䕝 䕡 𦾱 𧃒 䕫 虐 虜 虧 虩 蚩 蚈 蜎 蛢 蝹 蜨 蝫 螆 䗗 蟡 蠁 䗹 衠 衣 𧙧 裗 裞 䘵 裺 㒻 𧢮 𧥦 䚾"),
  (0x2F9CE, "䛇 誠 諭 變 豕 𧲨 貫 賁 贛 起 𧼯 𠠄 跋 趼 跰 𠣞 軔 輸 𨗒 𨗭 邔 郱 鄑 𨜮 鄛 鈸 鋗 鋘 鉼 鏹 鐕 𨯺 開 䦕 閷 𨵷 䧦 雃 嶲 霣 𩅅 𩈚"),
  (0x2F9F8, "䩮 䩶 韠 𩐊 䪲 𩒖 頋 頋 頩 𩖶 飢 䬳 餩 馧 駂 駾 䯎 𩬰 鬒 鱀 鳽 䳎 䳭 鵧 𪃎 䳸 𪄅 𪈎 𪊑 麻 䵖 黹 黾 鼅 鼏 鼖 鼻 𪘀")]

/-- Characters that are left out. -/
def ignoredRanges : List CodeRange := [
  (0xAD, 0xAD), (0x34F, 0x34F), (0x115F, 0x1160), (0x17B4, 0x17B5), (0x180B, 0x180F),
  (0x200B, 0x200B), (0x2060, 0x2064), (0x206A, 0x206F), (0x3164, 0x3164), (0xFE00, 0xFE0F),
  (0xFEFF, 0xFEFF), (0xFFA0, 0xFFA0), (0x1BCA0, 0x1BCA3), (0x1D173, 0x1D17A), (0xE0100, 0xE01EF)]

/-- Characters that no name may contain, although their categories admit them. -/
def excludedRanges : List CodeRange := [
  (0xA0, 0xA0), (0xA8, 0xA8), (0xAF, 0xAF), (0xB4, 0xB4), (0xB8, 0xB8), (0x2D8, 0x2DD),
  (0x37A, 0x37A), (0x384, 0x385), (0x600, 0x605), (0x61C, 0x61C), (0x6DD, 0x6DD), (0x70F, 0x70F),
  (0x890, 0x891), (0x8E2, 0x8E2), (0x1680, 0x1680), (0x1FBD, 0x1FBD), (0x1FBF, 0x1FC1),
  (0x1FCD, 0x1FCF), (0x1FDD, 0x1FDF), (0x1FED, 0x1FEE), (0x1FFD, 0x1FFE), (0x2000, 0x200A),
  (0x200E, 0x200F), (0x2017, 0x2017), (0x2024, 0x2026), (0x2028, 0x202F), (0x203E, 0x203E),
  (0x2047, 0x2049), (0x205F, 0x205F), (0x2066, 0x2069), (0x2100, 0x2101), (0x2105, 0x2106),
  (0x2488, 0x249B), (0x2A74, 0x2A74), (0x2FF0, 0x3000), (0x309B, 0x309C), (0x31EF, 0x31EF),
  (0x33C2, 0x33C2), (0x33C7, 0x33C7), (0x33D8, 0x33D8), (0xFC5E, 0xFC63), (0xFDFA, 0xFDFB),
  (0xFE12, 0xFE13), (0xFE16, 0xFE16), (0xFE19, 0xFE19), (0xFE30, 0xFE30), (0xFE47, 0xFE4C),
  (0xFE52, 0xFE52), (0xFE55, 0xFE56), (0xFE5F, 0xFE5F), (0xFE64, 0xFE65), (0xFE68, 0xFE68),
  (0xFE6A, 0xFE6B), (0xFE70, 0xFE70), (0xFE72, 0xFE72), (0xFE74, 0xFE74), (0xFE76, 0xFE76),
  (0xFE78, 0xFE78), (0xFE7A, 0xFE7A), (0xFE7C, 0xFE7C), (0xFE7E, 0xFE7E), (0xFF03, 0xFF03),
  (0xFF05, 0xFF05), (0xFF0F, 0xFF0F), (0xFF1A, 0xFF1A), (0xFF1C, 0xFF1C), (0xFF1E, 0xFF20),
  (0xFF3B, 0xFF3E), (0xFF5C, 0xFF5C), (0xFFE3, 0xFFE3), (0xFFF9, 0xFFFD), (0x110BD, 0x110BD),
  (0x110CD, 0x110CD), (0x13430, 0x1343F), (0x1F100, 0x1F100), (0xE0001, 0xE0001),
  (0xE0020, 0xE007F)]

/-- Letters that join the one after them. -/
def joinsNextRanges : List CodeRange := [
  (0x620, 0x620), (0x626, 0x626), (0x628, 0x628), (0x62A, 0x62E), (0x633, 0x63F), (0x641, 0x647),
  (0x649, 0x64A), (0x66E, 0x66F), (0x679, 0x687), (0x69A, 0x6BF), (0x6C1, 0x6C2), (0x6CC, 0x6CC),
  (0x6CE, 0x6CE), (0x6D0, 0x6D1), (0x6FA, 0x6FC), (0x6FF, 0x6FF), (0x712, 0x714), (0x71A, 0x71D),
  (0x71F, 0x727), (0x729, 0x729), (0x72B, 0x72B), (0x72D, 0x72E), (0x74E, 0x758), (0x75C, 0x76A),
  (0x76D, 0x770), (0x772, 0x772), (0x775, 0x777), (0x77A, 0x77F), (0x7CA, 0x7EA), (0x841, 0x845),
  (0x848, 0x848), (0x84A, 0x853), (0x855, 0x855), (0x860, 0x860), (0x862, 0x865), (0x868, 0x868),
  (0x886, 0x886), (0x889, 0x88D), (0x8A0, 0x8A9), (0x8AF, 0x8B0), (0x8B3, 0x8B8), (0x8BA, 0x8C8),
  (0x1807, 0x1807), (0x1820, 0x1878), (0x1887, 0x18A8), (0x18AA, 0x18AA), (0xA840, 0xA872),
  (0x10AC0, 0x10AC4), (0x10ACD, 0x10ACD), (0x10AD3, 0x10ADC), (0x10ADE, 0x10AE0),
  (0x10AEB, 0x10AEE), (0x10B80, 0x10B80), (0x10B82, 0x10B82), (0x10B86, 0x10B88),
  (0x10B8A, 0x10B8B), (0x10B8D, 0x10B8D), (0x10B90, 0x10B90), (0x10BAD, 0x10BAE),
  (0x10D00, 0x10D21), (0x10D23, 0x10D23), (0x10EC3, 0x10EC4), (0x10F30, 0x10F32),
  (0x10F34, 0x10F44), (0x10F51, 0x10F53), (0x10F70, 0x10F73), (0x10F76, 0x10F81),
  (0x10FB0, 0x10FB0), (0x10FB2, 0x10FB3), (0x10FB8, 0x10FB8), (0x10FBB, 0x10FBC),
  (0x10FBE, 0x10FBF), (0x10FC1, 0x10FC1), (0x10FC4, 0x10FC4), (0x10FCA, 0x10FCB),
  (0x1E922, 0x1E943)]

/-- Letters that join the one before them. -/
def joinsPreviousRanges : List CodeRange := [
  (0x620, 0x620), (0x622, 0x63F), (0x641, 0x64A), (0x66E, 0x66F), (0x671, 0x673), (0x679, 0x6D3),
  (0x6D5, 0x6D5), (0x6EE, 0x6EF), (0x6FA, 0x6FC), (0x6FF, 0x6FF), (0x710, 0x710), (0x712, 0x72F),
  (0x74D, 0x77F), (0x7CA, 0x7EA), (0x840, 0x858), (0x860, 0x860), (0x862, 0x865), (0x867, 0x882),
  (0x886, 0x886), (0x889, 0x88E), (0x8A0, 0x8AC), (0x8AE, 0x8C8), (0x1807, 0x1807),
  (0x1820, 0x1878), (0x1887, 0x18A8), (0x18AA, 0x18AA), (0xA840, 0xA871), (0x10AC0, 0x10AC5),
  (0x10AC7, 0x10AC7), (0x10AC9, 0x10ACA), (0x10ACE, 0x10AD6), (0x10AD8, 0x10AE1),
  (0x10AE4, 0x10AE4), (0x10AEB, 0x10AEF), (0x10B80, 0x10B91), (0x10BA9, 0x10BAE),
  (0x10D01, 0x10D23), (0x10EC2, 0x10EC4), (0x10F30, 0x10F44), (0x10F51, 0x10F54),
  (0x10F70, 0x10F81), (0x10FB0, 0x10FB0), (0x10FB2, 0x10FB6), (0x10FB8, 0x10FBF),
  (0x10FC1, 0x10FC4), (0x10FC9, 0x10FCA), (0x1E922, 0x1E943)]

end JsonPath.Url
