import Hypertext.Entity.Entry

/-!
# Named character references that begin with `h` to `m`
-/

namespace Hypertext.Entity.Table

def lowerH : List Entry :=
  [⟨['h', 'A', 'r', 'r', ';'], ['\u21D4']⟩,
   ⟨['h', 'a', 'i', 'r', 's', 'p', ';'], ['\u200A']⟩,
   ⟨['h', 'a', 'l', 'f', ';'], ['\u00BD']⟩,
   ⟨['h', 'a', 'm', 'i', 'l', 't', ';'], ['\u210B']⟩,
   ⟨['h', 'a', 'r', 'd', 'c', 'y', ';'], ['\u044A']⟩,
   ⟨['h', 'a', 'r', 'r', ';'], ['\u2194']⟩,
   ⟨['h', 'a', 'r', 'r', 'c', 'i', 'r', ';'], ['\u2948']⟩,
   ⟨['h', 'a', 'r', 'r', 'w', ';'], ['\u21AD']⟩,
   ⟨['h', 'b', 'a', 'r', ';'], ['\u210F']⟩,
   ⟨['h', 'c', 'i', 'r', 'c', ';'], ['\u0125']⟩,
   ⟨['h', 'e', 'a', 'r', 't', 's', ';'], ['\u2665']⟩,
   ⟨['h', 'e', 'a', 'r', 't', 's', 'u', 'i', 't', ';'], ['\u2665']⟩,
   ⟨['h', 'e', 'l', 'l', 'i', 'p', ';'], ['\u2026']⟩,
   ⟨['h', 'e', 'r', 'c', 'o', 'n', ';'], ['\u22B9']⟩,
   ⟨['h', 'f', 'r', ';'], ['𝔥']⟩,
   ⟨['h', 'k', 's', 'e', 'a', 'r', 'o', 'w', ';'], ['\u2925']⟩,
   ⟨['h', 'k', 's', 'w', 'a', 'r', 'o', 'w', ';'], ['\u2926']⟩,
   ⟨['h', 'o', 'a', 'r', 'r', ';'], ['\u21FF']⟩,
   ⟨['h', 'o', 'm', 't', 'h', 't', ';'], ['\u223B']⟩,
   ⟨['h', 'o', 'o', 'k', 'l', 'e', 'f', 't', 'a', 'r', 'r', 'o', 'w', ';'], ['\u21A9']⟩,
   ⟨['h', 'o', 'o', 'k', 'r', 'i', 'g', 'h', 't', 'a', 'r', 'r', 'o', 'w', ';'], ['\u21AA']⟩,
   ⟨['h', 'o', 'p', 'f', ';'], ['𝕙']⟩,
   ⟨['h', 'o', 'r', 'b', 'a', 'r', ';'], ['\u2015']⟩,
   ⟨['h', 's', 'c', 'r', ';'], ['𝒽']⟩,
   ⟨['h', 's', 'l', 'a', 's', 'h', ';'], ['\u210F']⟩,
   ⟨['h', 's', 't', 'r', 'o', 'k', ';'], ['\u0127']⟩,
   ⟨['h', 'y', 'b', 'u', 'l', 'l', ';'], ['\u2043']⟩,
   ⟨['h', 'y', 'p', 'h', 'e', 'n', ';'], ['\u2010']⟩]

def lowerI : List Entry :=
  [⟨['i', 'a', 'c', 'u', 't', 'e'], ['\u00ED']⟩,
   ⟨['i', 'a', 'c', 'u', 't', 'e', ';'], ['\u00ED']⟩,
   ⟨['i', 'c', ';'], ['\u2063']⟩,
   ⟨['i', 'c', 'i', 'r', 'c'], ['\u00EE']⟩,
   ⟨['i', 'c', 'i', 'r', 'c', ';'], ['\u00EE']⟩,
   ⟨['i', 'c', 'y', ';'], ['\u0438']⟩,
   ⟨['i', 'e', 'c', 'y', ';'], ['\u0435']⟩,
   ⟨['i', 'e', 'x', 'c', 'l'], ['\u00A1']⟩,
   ⟨['i', 'e', 'x', 'c', 'l', ';'], ['\u00A1']⟩,
   ⟨['i', 'f', 'f', ';'], ['\u21D4']⟩,
   ⟨['i', 'f', 'r', ';'], ['𝔦']⟩,
   ⟨['i', 'g', 'r', 'a', 'v', 'e'], ['\u00EC']⟩,
   ⟨['i', 'g', 'r', 'a', 'v', 'e', ';'], ['\u00EC']⟩,
   ⟨['i', 'i', ';'], ['\u2148']⟩,
   ⟨['i', 'i', 'i', 'i', 'n', 't', ';'], ['\u2A0C']⟩,
   ⟨['i', 'i', 'i', 'n', 't', ';'], ['\u222D']⟩,
   ⟨['i', 'i', 'n', 'f', 'i', 'n', ';'], ['\u29DC']⟩,
   ⟨['i', 'i', 'o', 't', 'a', ';'], ['\u2129']⟩,
   ⟨['i', 'j', 'l', 'i', 'g', ';'], ['\u0133']⟩,
   ⟨['i', 'm', 'a', 'c', 'r', ';'], ['\u012B']⟩,
   ⟨['i', 'm', 'a', 'g', 'e', ';'], ['\u2111']⟩,
   ⟨['i', 'm', 'a', 'g', 'l', 'i', 'n', 'e', ';'], ['\u2110']⟩,
   ⟨['i', 'm', 'a', 'g', 'p', 'a', 'r', 't', ';'], ['\u2111']⟩,
   ⟨['i', 'm', 'a', 't', 'h', ';'], ['\u0131']⟩,
   ⟨['i', 'm', 'o', 'f', ';'], ['\u22B7']⟩,
   ⟨['i', 'm', 'p', 'e', 'd', ';'], ['\u01B5']⟩,
   ⟨['i', 'n', ';'], ['\u2208']⟩,
   ⟨['i', 'n', 'c', 'a', 'r', 'e', ';'], ['\u2105']⟩,
   ⟨['i', 'n', 'f', 'i', 'n', ';'], ['\u221E']⟩,
   ⟨['i', 'n', 'f', 'i', 'n', 't', 'i', 'e', ';'], ['\u29DD']⟩,
   ⟨['i', 'n', 'o', 'd', 'o', 't', ';'], ['\u0131']⟩,
   ⟨['i', 'n', 't', ';'], ['\u222B']⟩,
   ⟨['i', 'n', 't', 'c', 'a', 'l', ';'], ['\u22BA']⟩,
   ⟨['i', 'n', 't', 'e', 'g', 'e', 'r', 's', ';'], ['\u2124']⟩,
   ⟨['i', 'n', 't', 'e', 'r', 'c', 'a', 'l', ';'], ['\u22BA']⟩,
   ⟨['i', 'n', 't', 'l', 'a', 'r', 'h', 'k', ';'], ['\u2A17']⟩,
   ⟨['i', 'n', 't', 'p', 'r', 'o', 'd', ';'], ['\u2A3C']⟩,
   ⟨['i', 'o', 'c', 'y', ';'], ['\u0451']⟩,
   ⟨['i', 'o', 'g', 'o', 'n', ';'], ['\u012F']⟩,
   ⟨['i', 'o', 'p', 'f', ';'], ['𝕚']⟩,
   ⟨['i', 'o', 't', 'a', ';'], ['\u03B9']⟩,
   ⟨['i', 'p', 'r', 'o', 'd', ';'], ['\u2A3C']⟩,
   ⟨['i', 'q', 'u', 'e', 's', 't'], ['\u00BF']⟩,
   ⟨['i', 'q', 'u', 'e', 's', 't', ';'], ['\u00BF']⟩,
   ⟨['i', 's', 'c', 'r', ';'], ['𝒾']⟩,
   ⟨['i', 's', 'i', 'n', ';'], ['\u2208']⟩,
   ⟨['i', 's', 'i', 'n', 'E', ';'], ['\u22F9']⟩,
   ⟨['i', 's', 'i', 'n', 'd', 'o', 't', ';'], ['\u22F5']⟩,
   ⟨['i', 's', 'i', 'n', 's', ';'], ['\u22F4']⟩,
   ⟨['i', 's', 'i', 'n', 's', 'v', ';'], ['\u22F3']⟩,
   ⟨['i', 's', 'i', 'n', 'v', ';'], ['\u2208']⟩,
   ⟨['i', 't', ';'], ['\u2062']⟩,
   ⟨['i', 't', 'i', 'l', 'd', 'e', ';'], ['\u0129']⟩,
   ⟨['i', 'u', 'k', 'c', 'y', ';'], ['\u0456']⟩,
   ⟨['i', 'u', 'm', 'l'], ['\u00EF']⟩,
   ⟨['i', 'u', 'm', 'l', ';'], ['\u00EF']⟩]

def lowerJ : List Entry :=
  [⟨['j', 'c', 'i', 'r', 'c', ';'], ['\u0135']⟩,
   ⟨['j', 'c', 'y', ';'], ['\u0439']⟩,
   ⟨['j', 'f', 'r', ';'], ['𝔧']⟩,
   ⟨['j', 'm', 'a', 't', 'h', ';'], ['\u0237']⟩,
   ⟨['j', 'o', 'p', 'f', ';'], ['𝕛']⟩,
   ⟨['j', 's', 'c', 'r', ';'], ['𝒿']⟩,
   ⟨['j', 's', 'e', 'r', 'c', 'y', ';'], ['\u0458']⟩,
   ⟨['j', 'u', 'k', 'c', 'y', ';'], ['\u0454']⟩]

def lowerK : List Entry :=
  [⟨['k', 'a', 'p', 'p', 'a', ';'], ['\u03BA']⟩,
   ⟨['k', 'a', 'p', 'p', 'a', 'v', ';'], ['\u03F0']⟩,
   ⟨['k', 'c', 'e', 'd', 'i', 'l', ';'], ['\u0137']⟩,
   ⟨['k', 'c', 'y', ';'], ['\u043A']⟩,
   ⟨['k', 'f', 'r', ';'], ['𝔨']⟩,
   ⟨['k', 'g', 'r', 'e', 'e', 'n', ';'], ['\u0138']⟩,
   ⟨['k', 'h', 'c', 'y', ';'], ['\u0445']⟩,
   ⟨['k', 'j', 'c', 'y', ';'], ['\u045C']⟩,
   ⟨['k', 'o', 'p', 'f', ';'], ['𝕜']⟩,
   ⟨['k', 's', 'c', 'r', ';'], ['𝓀']⟩]

def lowerL : List Entry :=
  [⟨['l', 'A', 'a', 'r', 'r', ';'], ['\u21DA']⟩,
   ⟨['l', 'A', 'r', 'r', ';'], ['\u21D0']⟩,
   ⟨['l', 'A', 't', 'a', 'i', 'l', ';'], ['\u291B']⟩,
   ⟨['l', 'B', 'a', 'r', 'r', ';'], ['\u290E']⟩,
   ⟨['l', 'E', ';'], ['\u2266']⟩,
   ⟨['l', 'E', 'g', ';'], ['\u2A8B']⟩,
   ⟨['l', 'H', 'a', 'r', ';'], ['\u2962']⟩,
   ⟨['l', 'a', 'c', 'u', 't', 'e', ';'], ['\u013A']⟩,
   ⟨['l', 'a', 'e', 'm', 'p', 't', 'y', 'v', ';'], ['\u29B4']⟩,
   ⟨['l', 'a', 'g', 'r', 'a', 'n', ';'], ['\u2112']⟩,
   ⟨['l', 'a', 'm', 'b', 'd', 'a', ';'], ['\u03BB']⟩,
   ⟨['l', 'a', 'n', 'g', ';'], ['\u27E8']⟩,
   ⟨['l', 'a', 'n', 'g', 'd', ';'], ['\u2991']⟩,
   ⟨['l', 'a', 'n', 'g', 'l', 'e', ';'], ['\u27E8']⟩,
   ⟨['l', 'a', 'p', ';'], ['\u2A85']⟩,
   ⟨['l', 'a', 'q', 'u', 'o'], ['\u00AB']⟩,
   ⟨['l', 'a', 'q', 'u', 'o', ';'], ['\u00AB']⟩,
   ⟨['l', 'a', 'r', 'r', ';'], ['\u2190']⟩,
   ⟨['l', 'a', 'r', 'r', 'b', ';'], ['\u21E4']⟩,
   ⟨['l', 'a', 'r', 'r', 'b', 'f', 's', ';'], ['\u291F']⟩,
   ⟨['l', 'a', 'r', 'r', 'f', 's', ';'], ['\u291D']⟩,
   ⟨['l', 'a', 'r', 'r', 'h', 'k', ';'], ['\u21A9']⟩,
   ⟨['l', 'a', 'r', 'r', 'l', 'p', ';'], ['\u21AB']⟩,
   ⟨['l', 'a', 'r', 'r', 'p', 'l', ';'], ['\u2939']⟩,
   ⟨['l', 'a', 'r', 'r', 's', 'i', 'm', ';'], ['\u2973']⟩,
   ⟨['l', 'a', 'r', 'r', 't', 'l', ';'], ['\u21A2']⟩,
   ⟨['l', 'a', 't', ';'], ['\u2AAB']⟩,
   ⟨['l', 'a', 't', 'a', 'i', 'l', ';'], ['\u2919']⟩,
   ⟨['l', 'a', 't', 'e', ';'], ['\u2AAD']⟩,
   ⟨['l', 'a', 't', 'e', 's', ';'], ['\u2AAD', '\uFE00']⟩,
   ⟨['l', 'b', 'a', 'r', 'r', ';'], ['\u290C']⟩,
   ⟨['l', 'b', 'b', 'r', 'k', ';'], ['\u2772']⟩,
   ⟨['l', 'b', 'r', 'a', 'c', 'e', ';'], ['\x7b']⟩,
   ⟨['l', 'b', 'r', 'a', 'c', 'k', ';'], ['[']⟩,
   ⟨['l', 'b', 'r', 'k', 'e', ';'], ['\u298B']⟩,
   ⟨['l', 'b', 'r', 'k', 's', 'l', 'd', ';'], ['\u298F']⟩,
   ⟨['l', 'b', 'r', 'k', 's', 'l', 'u', ';'], ['\u298D']⟩,
   ⟨['l', 'c', 'a', 'r', 'o', 'n', ';'], ['\u013E']⟩,
   ⟨['l', 'c', 'e', 'd', 'i', 'l', ';'], ['\u013C']⟩,
   ⟨['l', 'c', 'e', 'i', 'l', ';'], ['\u2308']⟩,
   ⟨['l', 'c', 'u', 'b', ';'], ['\x7b']⟩,
   ⟨['l', 'c', 'y', ';'], ['\u043B']⟩,
   ⟨['l', 'd', 'c', 'a', ';'], ['\u2936']⟩,
   ⟨['l', 'd', 'q', 'u', 'o', ';'], ['\u201C']⟩,
   ⟨['l', 'd', 'q', 'u', 'o', 'r', ';'], ['\u201E']⟩,
   ⟨['l', 'd', 'r', 'd', 'h', 'a', 'r', ';'], ['\u2967']⟩,
   ⟨['l', 'd', 'r', 'u', 's', 'h', 'a', 'r', ';'], ['\u294B']⟩,
   ⟨['l', 'd', 's', 'h', ';'], ['\u21B2']⟩,
   ⟨['l', 'e', ';'], ['\u2264']⟩,
   ⟨['l', 'e', 'f', 't', 'a', 'r', 'r', 'o', 'w', ';'], ['\u2190']⟩,
   ⟨['l', 'e', 'f', 't', 'a', 'r', 'r', 'o', 'w', 't', 'a', 'i', 'l', ';'], ['\u21A2']⟩,
   ⟨['l', 'e', 'f', 't', 'h', 'a', 'r', 'p', 'o', 'o', 'n', 'd', 'o', 'w', 'n', ';'], ['\u21BD']⟩,
   ⟨['l', 'e', 'f', 't', 'h', 'a', 'r', 'p', 'o', 'o', 'n', 'u', 'p', ';'], ['\u21BC']⟩,
   ⟨['l', 'e', 'f', 't', 'l', 'e', 'f', 't', 'a', 'r', 'r', 'o', 'w', 's', ';'], ['\u21C7']⟩,
   ⟨['l', 'e', 'f', 't', 'r', 'i', 'g', 'h', 't', 'a', 'r', 'r', 'o', 'w', ';'], ['\u2194']⟩,
   ⟨['l', 'e', 'f', 't', 'r', 'i', 'g', 'h', 't', 'a', 'r', 'r', 'o', 'w', 's', ';'], ['\u21C6']⟩,
   ⟨['l', 'e', 'f', 't', 'r', 'i', 'g', 'h', 't', 'h', 'a', 'r', 'p', 'o', 'o', 'n', 's', ';'],
    ['\u21CB']⟩,
   ⟨['l', 'e', 'f', 't', 'r', 'i', 'g', 'h', 't', 's', 'q', 'u', 'i', 'g', 'a', 'r', 'r', 'o', 'w',
      ';'], ['\u21AD']⟩,
   ⟨['l', 'e', 'f', 't', 't', 'h', 'r', 'e', 'e', 't', 'i', 'm', 'e', 's', ';'], ['\u22CB']⟩,
   ⟨['l', 'e', 'g', ';'], ['\u22DA']⟩,
   ⟨['l', 'e', 'q', ';'], ['\u2264']⟩,
   ⟨['l', 'e', 'q', 'q', ';'], ['\u2266']⟩,
   ⟨['l', 'e', 'q', 's', 'l', 'a', 'n', 't', ';'], ['\u2A7D']⟩,
   ⟨['l', 'e', 's', ';'], ['\u2A7D']⟩,
   ⟨['l', 'e', 's', 'c', 'c', ';'], ['\u2AA8']⟩,
   ⟨['l', 'e', 's', 'd', 'o', 't', ';'], ['\u2A7F']⟩,
   ⟨['l', 'e', 's', 'd', 'o', 't', 'o', ';'], ['\u2A81']⟩,
   ⟨['l', 'e', 's', 'd', 'o', 't', 'o', 'r', ';'], ['\u2A83']⟩,
   ⟨['l', 'e', 's', 'g', ';'], ['\u22DA', '\uFE00']⟩,
   ⟨['l', 'e', 's', 'g', 'e', 's', ';'], ['\u2A93']⟩,
   ⟨['l', 'e', 's', 's', 'a', 'p', 'p', 'r', 'o', 'x', ';'], ['\u2A85']⟩,
   ⟨['l', 'e', 's', 's', 'd', 'o', 't', ';'], ['\u22D6']⟩,
   ⟨['l', 'e', 's', 's', 'e', 'q', 'g', 't', 'r', ';'], ['\u22DA']⟩,
   ⟨['l', 'e', 's', 's', 'e', 'q', 'q', 'g', 't', 'r', ';'], ['\u2A8B']⟩,
   ⟨['l', 'e', 's', 's', 'g', 't', 'r', ';'], ['\u2276']⟩,
   ⟨['l', 'e', 's', 's', 's', 'i', 'm', ';'], ['\u2272']⟩,
   ⟨['l', 'f', 'i', 's', 'h', 't', ';'], ['\u297C']⟩,
   ⟨['l', 'f', 'l', 'o', 'o', 'r', ';'], ['\u230A']⟩,
   ⟨['l', 'f', 'r', ';'], ['𝔩']⟩,
   ⟨['l', 'g', ';'], ['\u2276']⟩,
   ⟨['l', 'g', 'E', ';'], ['\u2A91']⟩,
   ⟨['l', 'h', 'a', 'r', 'd', ';'], ['\u21BD']⟩,
   ⟨['l', 'h', 'a', 'r', 'u', ';'], ['\u21BC']⟩,
   ⟨['l', 'h', 'a', 'r', 'u', 'l', ';'], ['\u296A']⟩,
   ⟨['l', 'h', 'b', 'l', 'k', ';'], ['\u2584']⟩,
   ⟨['l', 'j', 'c', 'y', ';'], ['\u0459']⟩,
   ⟨['l', 'l', ';'], ['\u226A']⟩,
   ⟨['l', 'l', 'a', 'r', 'r', ';'], ['\u21C7']⟩,
   ⟨['l', 'l', 'c', 'o', 'r', 'n', 'e', 'r', ';'], ['\u231E']⟩,
   ⟨['l', 'l', 'h', 'a', 'r', 'd', ';'], ['\u296B']⟩,
   ⟨['l', 'l', 't', 'r', 'i', ';'], ['\u25FA']⟩,
   ⟨['l', 'm', 'i', 'd', 'o', 't', ';'], ['\u0140']⟩,
   ⟨['l', 'm', 'o', 'u', 's', 't', ';'], ['\u23B0']⟩,
   ⟨['l', 'm', 'o', 'u', 's', 't', 'a', 'c', 'h', 'e', ';'], ['\u23B0']⟩,
   ⟨['l', 'n', 'E', ';'], ['\u2268']⟩,
   ⟨['l', 'n', 'a', 'p', ';'], ['\u2A89']⟩,
   ⟨['l', 'n', 'a', 'p', 'p', 'r', 'o', 'x', ';'], ['\u2A89']⟩,
   ⟨['l', 'n', 'e', ';'], ['\u2A87']⟩,
   ⟨['l', 'n', 'e', 'q', ';'], ['\u2A87']⟩,
   ⟨['l', 'n', 'e', 'q', 'q', ';'], ['\u2268']⟩,
   ⟨['l', 'n', 's', 'i', 'm', ';'], ['\u22E6']⟩,
   ⟨['l', 'o', 'a', 'n', 'g', ';'], ['\u27EC']⟩,
   ⟨['l', 'o', 'a', 'r', 'r', ';'], ['\u21FD']⟩,
   ⟨['l', 'o', 'b', 'r', 'k', ';'], ['\u27E6']⟩,
   ⟨['l', 'o', 'n', 'g', 'l', 'e', 'f', 't', 'a', 'r', 'r', 'o', 'w', ';'], ['\u27F5']⟩,
   ⟨['l', 'o', 'n', 'g', 'l', 'e', 'f', 't', 'r', 'i', 'g', 'h', 't', 'a', 'r', 'r', 'o', 'w', ';'],
    ['\u27F7']⟩,
   ⟨['l', 'o', 'n', 'g', 'm', 'a', 'p', 's', 't', 'o', ';'], ['\u27FC']⟩,
   ⟨['l', 'o', 'n', 'g', 'r', 'i', 'g', 'h', 't', 'a', 'r', 'r', 'o', 'w', ';'], ['\u27F6']⟩,
   ⟨['l', 'o', 'o', 'p', 'a', 'r', 'r', 'o', 'w', 'l', 'e', 'f', 't', ';'], ['\u21AB']⟩,
   ⟨['l', 'o', 'o', 'p', 'a', 'r', 'r', 'o', 'w', 'r', 'i', 'g', 'h', 't', ';'], ['\u21AC']⟩,
   ⟨['l', 'o', 'p', 'a', 'r', ';'], ['\u2985']⟩,
   ⟨['l', 'o', 'p', 'f', ';'], ['𝕝']⟩,
   ⟨['l', 'o', 'p', 'l', 'u', 's', ';'], ['\u2A2D']⟩,
   ⟨['l', 'o', 't', 'i', 'm', 'e', 's', ';'], ['\u2A34']⟩,
   ⟨['l', 'o', 'w', 'a', 's', 't', ';'], ['\u2217']⟩,
   ⟨['l', 'o', 'w', 'b', 'a', 'r', ';'], ['_']⟩,
   ⟨['l', 'o', 'z', ';'], ['\u25CA']⟩,
   ⟨['l', 'o', 'z', 'e', 'n', 'g', 'e', ';'], ['\u25CA']⟩,
   ⟨['l', 'o', 'z', 'f', ';'], ['\u29EB']⟩,
   ⟨['l', 'p', 'a', 'r', ';'], ['(']⟩,
   ⟨['l', 'p', 'a', 'r', 'l', 't', ';'], ['\u2993']⟩,
   ⟨['l', 'r', 'a', 'r', 'r', ';'], ['\u21C6']⟩,
   ⟨['l', 'r', 'c', 'o', 'r', 'n', 'e', 'r', ';'], ['\u231F']⟩,
   ⟨['l', 'r', 'h', 'a', 'r', ';'], ['\u21CB']⟩,
   ⟨['l', 'r', 'h', 'a', 'r', 'd', ';'], ['\u296D']⟩,
   ⟨['l', 'r', 'm', ';'], ['\u200E']⟩,
   ⟨['l', 'r', 't', 'r', 'i', ';'], ['\u22BF']⟩,
   ⟨['l', 's', 'a', 'q', 'u', 'o', ';'], ['\u2039']⟩,
   ⟨['l', 's', 'c', 'r', ';'], ['𝓁']⟩,
   ⟨['l', 's', 'h', ';'], ['\u21B0']⟩,
   ⟨['l', 's', 'i', 'm', ';'], ['\u2272']⟩,
   ⟨['l', 's', 'i', 'm', 'e', ';'], ['\u2A8D']⟩,
   ⟨['l', 's', 'i', 'm', 'g', ';'], ['\u2A8F']⟩,
   ⟨['l', 's', 'q', 'b', ';'], ['[']⟩,
   ⟨['l', 's', 'q', 'u', 'o', ';'], ['\u2018']⟩,
   ⟨['l', 's', 'q', 'u', 'o', 'r', ';'], ['\u201A']⟩,
   ⟨['l', 's', 't', 'r', 'o', 'k', ';'], ['\u0142']⟩,
   ⟨['l', 't'], ['<']⟩,
   ⟨['l', 't', ';'], ['<']⟩,
   ⟨['l', 't', 'c', 'c', ';'], ['\u2AA6']⟩,
   ⟨['l', 't', 'c', 'i', 'r', ';'], ['\u2A79']⟩,
   ⟨['l', 't', 'd', 'o', 't', ';'], ['\u22D6']⟩,
   ⟨['l', 't', 'h', 'r', 'e', 'e', ';'], ['\u22CB']⟩,
   ⟨['l', 't', 'i', 'm', 'e', 's', ';'], ['\u22C9']⟩,
   ⟨['l', 't', 'l', 'a', 'r', 'r', ';'], ['\u2976']⟩,
   ⟨['l', 't', 'q', 'u', 'e', 's', 't', ';'], ['\u2A7B']⟩,
   ⟨['l', 't', 'r', 'P', 'a', 'r', ';'], ['\u2996']⟩,
   ⟨['l', 't', 'r', 'i', ';'], ['\u25C3']⟩,
   ⟨['l', 't', 'r', 'i', 'e', ';'], ['\u22B4']⟩,
   ⟨['l', 't', 'r', 'i', 'f', ';'], ['\u25C2']⟩,
   ⟨['l', 'u', 'r', 'd', 's', 'h', 'a', 'r', ';'], ['\u294A']⟩,
   ⟨['l', 'u', 'r', 'u', 'h', 'a', 'r', ';'], ['\u2966']⟩,
   ⟨['l', 'v', 'e', 'r', 't', 'n', 'e', 'q', 'q', ';'], ['\u2268', '\uFE00']⟩,
   ⟨['l', 'v', 'n', 'E', ';'], ['\u2268', '\uFE00']⟩]

def lowerM : List Entry :=
  [⟨['m', 'D', 'D', 'o', 't', ';'], ['\u223A']⟩,
   ⟨['m', 'a', 'c', 'r'], ['\u00AF']⟩,
   ⟨['m', 'a', 'c', 'r', ';'], ['\u00AF']⟩,
   ⟨['m', 'a', 'l', 'e', ';'], ['\u2642']⟩,
   ⟨['m', 'a', 'l', 't', ';'], ['\u2720']⟩,
   ⟨['m', 'a', 'l', 't', 'e', 's', 'e', ';'], ['\u2720']⟩,
   ⟨['m', 'a', 'p', ';'], ['\u21A6']⟩,
   ⟨['m', 'a', 'p', 's', 't', 'o', ';'], ['\u21A6']⟩,
   ⟨['m', 'a', 'p', 's', 't', 'o', 'd', 'o', 'w', 'n', ';'], ['\u21A7']⟩,
   ⟨['m', 'a', 'p', 's', 't', 'o', 'l', 'e', 'f', 't', ';'], ['\u21A4']⟩,
   ⟨['m', 'a', 'p', 's', 't', 'o', 'u', 'p', ';'], ['\u21A5']⟩,
   ⟨['m', 'a', 'r', 'k', 'e', 'r', ';'], ['\u25AE']⟩,
   ⟨['m', 'c', 'o', 'm', 'm', 'a', ';'], ['\u2A29']⟩,
   ⟨['m', 'c', 'y', ';'], ['\u043C']⟩,
   ⟨['m', 'd', 'a', 's', 'h', ';'], ['\u2014']⟩,
   ⟨['m', 'e', 'a', 's', 'u', 'r', 'e', 'd', 'a', 'n', 'g', 'l', 'e', ';'], ['\u2221']⟩,
   ⟨['m', 'f', 'r', ';'], ['𝔪']⟩,
   ⟨['m', 'h', 'o', ';'], ['\u2127']⟩,
   ⟨['m', 'i', 'c', 'r', 'o'], ['\u00B5']⟩,
   ⟨['m', 'i', 'c', 'r', 'o', ';'], ['\u00B5']⟩,
   ⟨['m', 'i', 'd', ';'], ['\u2223']⟩,
   ⟨['m', 'i', 'd', 'a', 's', 't', ';'], ['*']⟩,
   ⟨['m', 'i', 'd', 'c', 'i', 'r', ';'], ['\u2AF0']⟩,
   ⟨['m', 'i', 'd', 'd', 'o', 't'], ['\u00B7']⟩,
   ⟨['m', 'i', 'd', 'd', 'o', 't', ';'], ['\u00B7']⟩,
   ⟨['m', 'i', 'n', 'u', 's', ';'], ['\u2212']⟩,
   ⟨['m', 'i', 'n', 'u', 's', 'b', ';'], ['\u229F']⟩,
   ⟨['m', 'i', 'n', 'u', 's', 'd', ';'], ['\u2238']⟩,
   ⟨['m', 'i', 'n', 'u', 's', 'd', 'u', ';'], ['\u2A2A']⟩,
   ⟨['m', 'l', 'c', 'p', ';'], ['\u2ADB']⟩,
   ⟨['m', 'l', 'd', 'r', ';'], ['\u2026']⟩,
   ⟨['m', 'n', 'p', 'l', 'u', 's', ';'], ['\u2213']⟩,
   ⟨['m', 'o', 'd', 'e', 'l', 's', ';'], ['\u22A7']⟩,
   ⟨['m', 'o', 'p', 'f', ';'], ['𝕞']⟩,
   ⟨['m', 'p', ';'], ['\u2213']⟩,
   ⟨['m', 's', 'c', 'r', ';'], ['𝓂']⟩,
   ⟨['m', 's', 't', 'p', 'o', 's', ';'], ['\u223E']⟩,
   ⟨['m', 'u', ';'], ['\u03BC']⟩,
   ⟨['m', 'u', 'l', 't', 'i', 'm', 'a', 'p', ';'], ['\u22B8']⟩,
   ⟨['m', 'u', 'm', 'a', 'p', ';'], ['\u22B8']⟩]

/-- The names that begin with `h` to `m`. -/
def hToM : List Entry :=
  lowerH ++ lowerI ++ lowerJ ++ lowerK ++ lowerL ++ lowerM

end Hypertext.Entity.Table
