import MailRules.Text.Range

set_option autoImplicit false

/-!
# Marks

Printable characters that are neither letters nor digits: punctuation, and symbols with the numerals
that are no digits. Symbols that are pictures count as neither.
-/

namespace MailRules.Text

/-- Punctuation, as first and last code of each run. -/
def punctuationRanges : List Range := [
  (33,35), (37,42), (44,47), (58,59), (63,64), (91,93), (95,95), (123,123), (125,125), (161,161),
  (167,167), (171,171), (182,183), (187,187), (191,191), (894,894), (903,903), (1370,1375),
  (1417,1418), (1470,1470), (1472,1472), (1475,1475), (1478,1478), (1523,1524), (1545,1546),
  (1548,1549), (1563,1567), (1642,1645), (1748,1748), (1792,1805), (2039,2041), (2096,2110),
  (2142,2142), (2404,2405), (2416,2416), (2557,2557), (2678,2678), (2800,2800), (3191,3191),
  (3204,3204), (3572,3572), (3663,3663), (3674,3675), (3844,3858), (3860,3860), (3898,3901),
  (3973,3973), (4048,4052), (4057,4058), (4170,4175), (4347,4347), (4960,4968), (5120,5120),
  (5742,5742), (5787,5788), (5867,5869), (5941,5942), (6100,6102), (6104,6106), (6144,6154),
  (6468,6469), (6686,6687), (6816,6822), (6824,6829), (7002,7008), (7037,7038), (7164,7167),
  (7227,7231), (7294,7295), (7360,7367), (7379,7379), (8208,8286), (8317,8318), (8333,8334),
  (8968,8971), (9001,9002), (10088,10101), (10181,10182), (10214,10223), (10627,10648),
  (10712,10715), (10748,10749), (11513,11516), (11518,11519), (11632,11632), (11776,11869),
  (12289,12351), (12448,12448), (12539,12539), (42238,42239), (42509,42511), (42611,42611),
  (42622,42622), (42738,42743), (43124,43127), (43214,43215), (43256,43258), (43260,43260),
  (43310,43311), (43359,43359), (43457,43469), (43486,43487), (43612,43615), (43742,43743),
  (43760,43761), (44011,44011), (64830,64831), (65040,65049), (65072,65121), (65123,65123),
  (65128,65128), (65130,65131), (65281,65283), (65285,65290), (65292,65295), (65306,65307),
  (65311,65312), (65339,65341), (65343,65343), (65371,65371), (65373,65373), (65375,65381),
  (65792,65794), (66463,66463), (66512,66512), (66927,66927), (67671,67671), (67871,67871),
  (67903,67903), (68176,68184), (68223,68223), (68336,68342), (68409,68415), (68505,68508),
  (69293,69293), (69461,69465), (69510,69513), (69703,69709), (69819,69825), (69952,69955),
  (70004,70005), (70085,70088), (70093,70093), (70107,70107), (70109,70111), (70200,70205),
  (70313,70313), (70731,70735), (70746,70749), (70854,70854), (71105,71127), (71233,71235),
  (71264,71276), (71353,71353), (71484,71486), (71739,71739), (72004,72006), (72162,72162),
  (72255,72262), (72346,72348), (72350,72354), (72769,72773), (72816,72817), (73463,73464),
  (73727,73727), (74864,74868), (77809,77810), (92782,92783), (92917,92917), (92983,92987),
  (92996,92996), (93847,93850), (94176,94193), (113823,113823), (121479,121483), (125278,125279)]

/-- Symbols and numerals, as first and last code of each run. -/
def symbolRanges : List Range := [
  (36,36), (43,43), (60,62), (94,94), (96,96), (124,124), (126,126), (162,166), (168,169),
  (172,177), (180,180), (184,184), (188,190), (215,215), (247,247), (706,709), (722,735),
  (741,747), (749,749), (751,767), (885,885), (900,901), (1014,1014), (1154,1154), (1421,1423),
  (1542,1544), (1547,1547), (1550,1551), (1758,1758), (1769,1769), (1789,1790), (2038,2038),
  (2046,2047), (2184,2184), (2546,2555), (2801,2801), (2928,2928), (2930,2935), (3056,3066),
  (3192,3199), (3407,3407), (3416,3422), (3440,3449), (3647,3647), (3841,3843), (3859,3859),
  (3861,3863), (3866,3871), (3882,3892), (3894,3894), (3896,3896), (4030,4037), (4039,4047),
  (4053,4056), (4254,4255), (4978,4988), (5008,5017), (5741,5741), (5870,5872), (6107,6107),
  (6128,6137), (6464,6464), (6622,6655), (7009,7018), (7028,7036), (8125,8125), (8127,8129),
  (8141,8143), (8157,8159), (8173,8175), (8189,8190), (8314,8316), (8330,8332), (8352,8384),
  (8448,8449), (8451,8454), (8456,8457), (8468,8468), (8470,8472), (8478,8483), (8485,8485),
  (8487,8487), (8489,8489), (8494,8494), (8506,8507), (8512,8516), (8522,8525), (8527,8967),
  (8972,9000), (9003,9290), (9321,9331), (9341,9351), (9361,9449), (9451,9460), (9470,9470),
  (9472,10087), (10111,10111), (10121,10121), (10131,10180), (10183,10213), (10224,10626),
  (10649,10711), (10716,10747), (10750,11263), (11493,11498), (11517,11517), (11904,12283),
  (12443,12444), (12688,12703), (12736,12771), (12800,13311), (19904,19967), (42128,42182),
  (42726,42735), (42752,42774), (42784,42785), (42889,42890), (43048,43051), (43056,43065),
  (43639,43641), (43867,43867), (43882,43883), (64256,64279), (64286,64286), (64297,64297),
  (64434,64450), (64832,64847), (64975,64975), (65020,65023), (65122,65122), (65124,65126),
  (65129,65129), (65284,65284), (65291,65291), (65308,65310), (65313,65338), (65342,65342),
  (65344,65370), (65372,65372), (65374,65374), (65392,65392), (65438,65439), (65504,65533),
  (65799,66044), (66273,66299), (66336,66339), (66369,66369), (66378,66378), (66513,66517),
  (67672,67679), (67703,67711), (67751,67759), (67835,67839), (67862,67867), (68028,68029),
  (68032,68095), (68164,68168), (68221,68222), (68253,68255), (68296,68296), (68331,68335),
  (68440,68447), (68472,68479), (68521,68527), (68858,68863), (69225,69246), (69405,69414),
  (69457,69460), (69573,69579), (69723,69733), (70113,70132), (71482,71483), (71487,71487),
  (71914,71922), (72794,72812), (73664,73713), (74752,74862), (92988,92991), (92997,92997),
  (93019,93025), (93824,93846), (113820,113820), (118608,119140), (119146,119148), (119171,119172),
  (119180,119209), (119214,119361), (119365,119672), (120513,120513), (120539,120539),
  (120571,120571), (120597,120597), (120629,120629), (120655,120655), (120687,120687),
  (120713,120713), (120745,120745), (120771,120771), (120832,121343), (121399,121402),
  (121453,121460), (121462,121475), (121477,121478), (123215,123215), (123647,123647),
  (125127,125135), (126065,126269), (126704,127221), (127243,127589), (128592,129201),
  (129536,129994)]

/-- Whether a printable character is punctuation. -/
def isPunctuation (c : Char) : Bool :=
  inRanges punctuationRanges c

/-- Whether a printable character is a symbol or a numeral. -/
def isSymbol (c : Char) : Bool :=
  inRanges symbolRanges c

example : "!_.§".toList.all isPunctuation = true := by decide +kernel
example : "+$½Ⅷ".toList.all isSymbol = true := by decide +kernel
example : "aé7絻😀".toList.any (fun c => isPunctuation c || isSymbol c) = false := by decide +kernel

end MailRules.Text
