import DocQuery.Text.Ranges

/-!
# Scripts

The characters of the scripts that a pattern can name. The tables follow Unicode 16.
-/

namespace DocQuery.Text

/-- The code points of the Latin script. -/
def scriptLatin : Ranges := [
  65, 91, 97, 123, 170, 171, 186, 187, 192, 215, 216, 247, 248, 697, 736, 741, 7424, 7462, 7468,
  7517, 7522, 7526, 7531, 7544, 7545, 7615, 7680, 7936, 8305, 8306, 8319, 8320, 8336, 8349, 8490,
  8492, 8498, 8499, 8526, 8527, 8544, 8585, 11360, 11392, 42786, 42888, 42891, 42958, 42960,
  42962, 42963, 42964, 42965, 42973, 42994, 43008, 43824, 43867, 43868, 43877, 43878, 43882,
  64256, 64263, 65313, 65339, 65345, 65371, 67456, 67462, 67463, 67505, 67506, 67515, 122624,
  122655, 122661, 122667]

/-- The code points of the Greek script. -/
def scriptGreek : Ranges := [
  880, 884, 885, 888, 890, 894, 895, 896, 900, 901, 902, 903, 904, 907, 908, 909, 910, 930, 931,
  994, 1008, 1024, 7462, 7467, 7517, 7522, 7526, 7531, 7615, 7616, 7936, 7958, 7960, 7966, 7968,
  8006, 8008, 8014, 8016, 8024, 8025, 8026, 8027, 8028, 8029, 8030, 8031, 8062, 8064, 8117, 8118,
  8133, 8134, 8148, 8150, 8156, 8157, 8176, 8178, 8181, 8182, 8191, 8486, 8487, 43877, 43878,
  65856, 65935, 65952, 65953, 119296, 119366]

/-- The code points of the Cyrillic script. -/
def scriptCyrillic : Ranges := [
  1024, 1157, 1159, 1328, 7296, 7307, 7467, 7468, 7544, 7545, 11744, 11776, 42560, 42656, 65070,
  65072, 122928, 122990, 123023, 123024]

/-- The code points of the Arabic script. -/
def scriptArabic : Ranges := [
  1536, 1541, 1542, 1548, 1549, 1563, 1564, 1567, 1568, 1600, 1601, 1611, 1622, 1648, 1649, 1757,
  1758, 1792, 1872, 1920, 2160, 2191, 2192, 2194, 2199, 2274, 2275, 2304, 64336, 64451, 64467,
  64830, 64832, 64912, 64914, 64968, 64975, 64976, 65008, 65024, 65136, 65141, 65142, 65277,
  69216, 69247, 69314, 69317, 69372, 69376, 126464, 126468, 126469, 126496, 126497, 126499,
  126500, 126501, 126503, 126504, 126505, 126515, 126516, 126520, 126521, 126522, 126523, 126524,
  126530, 126531, 126535, 126536, 126537, 126538, 126539, 126540, 126541, 126544, 126545, 126547,
  126548, 126549, 126551, 126552, 126553, 126554, 126555, 126556, 126557, 126558, 126559, 126560,
  126561, 126563, 126564, 126565, 126567, 126571, 126572, 126579, 126580, 126584, 126585, 126589,
  126590, 126591, 126592, 126602, 126603, 126620, 126625, 126628, 126629, 126634, 126635, 126652,
  126704, 126706]

/-- The code points of the Hebrew script. -/
def scriptHebrew : Ranges := [
  1425, 1480, 1488, 1515, 1519, 1525, 64285, 64311, 64312, 64317, 64318, 64319, 64320, 64322,
  64323, 64325, 64326, 64336]

/-- The code points of the Han script. -/
def scriptHan : Ranges := [
  11904, 11930, 11931, 12020, 12032, 12246, 12293, 12294, 12295, 12296, 12321, 12330, 12344,
  12348, 13312, 19904, 19968, 40960, 63744, 64110, 64112, 64218, 94178, 94180, 94192, 94194,
  131072, 173792, 173824, 177978, 177984, 178206, 178208, 183970, 183984, 191457, 191472, 192094,
  194560, 195102, 196608, 201547, 201552, 205744]

/-- The code points of the Hiragana script. -/
def scriptHiragana : Ranges := [
  12353, 12439, 12445, 12448, 110593, 110880, 110898, 110899, 110928, 110931, 127488, 127489]

/-- The code points of the Katakana script. -/
def scriptKatakana : Ranges := [
  12449, 12539, 12541, 12544, 12784, 12800, 13008, 13055, 13056, 13144, 65382, 65392, 65393,
  65438, 110576, 110580, 110581, 110588, 110589, 110591, 110592, 110593, 110880, 110883, 110933,
  110934, 110948, 110952]

/-- The code points of the Hangul script. -/
def scriptHangul : Ranges := [
  4352, 4608, 12334, 12336, 12593, 12687, 12800, 12831, 12896, 12927, 43360, 43389, 44032, 55204,
  55216, 55239, 55243, 55292, 65440, 65471, 65474, 65480, 65482, 65488, 65490, 65496, 65498, 65501]

/-- The code points of the Thai script. -/
def scriptThai : Ranges := [
  3585, 3643, 3648, 3676]

/-- The code points of the Devanagari script. -/
def scriptDevanagari : Ranges := [
  2304, 2385, 2389, 2404, 2406, 2432, 43232, 43264, 72448, 72458]

/-- The code points of the Armenian script. -/
def scriptArmenian : Ranges := [
  1329, 1367, 1369, 1419, 1421, 1424, 64275, 64280]

/-- The code points of the Georgian script. -/
def scriptGeorgian : Ranges := [
  4256, 4294, 4295, 4296, 4301, 4302, 4304, 4347, 4348, 4352, 7312, 7355, 7357, 7360, 11520,
  11558, 11559, 11560, 11565, 11566]

end DocQuery.Text
