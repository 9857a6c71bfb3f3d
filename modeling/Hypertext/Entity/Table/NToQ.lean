import Hypertext.Entity.Entry

/-!
# Named character references that begin with `n` to `q`
-/

namespace Hypertext.Entity.Table

def lowerN : List Entry :=
  [⟨['n', 'G', 'g', ';'], ['\u22D9', '\u0338']⟩,
   ⟨['n', 'G', 't', ';'], ['\u226B', '\u20D2']⟩,
   ⟨['n', 'G', 't', 'v', ';'], ['\u226B', '\u0338']⟩,
   ⟨['n', 'L', 'e', 'f', 't', 'a', 'r', 'r', 'o', 'w', ';'], ['\u21CD']⟩,
   ⟨['n', 'L', 'e', 'f', 't', 'r', 'i', 'g', 'h', 't', 'a', 'r', 'r', 'o', 'w', ';'], ['\u21CE']⟩,
   ⟨['n', 'L', 'l', ';'], ['\u22D8', '\u0338']⟩,
   ⟨['n', 'L', 't', ';'], ['\u226A', '\u20D2']⟩,
   ⟨['n', 'L', 't', 'v', ';'], ['\u226A', '\u0338']⟩,
   ⟨['n', 'R', 'i', 'g', 'h', 't', 'a', 'r', 'r', 'o', 'w', ';'], ['\u21CF']⟩,
   ⟨['n', 'V', 'D', 'a', 's', 'h', ';'], ['\u22AF']⟩,
   ⟨['n', 'V', 'd', 'a', 's', 'h', ';'], ['\u22AE']⟩,
   ⟨['n', 'a', 'b', 'l', 'a', ';'], ['\u2207']⟩,
   ⟨['n', 'a', 'c', 'u', 't', 'e', ';'], ['\u0144']⟩,
   ⟨['n', 'a', 'n', 'g', ';'], ['\u2220', '\u20D2']⟩,
   ⟨['n', 'a', 'p', ';'], ['\u2249']⟩,
   ⟨['n', 'a', 'p', 'E', ';'], ['\u2A70', '\u0338']⟩,
   ⟨['n', 'a', 'p', 'i', 'd', ';'], ['\u224B', '\u0338']⟩,
   ⟨['n', 'a', 'p', 'o', 's', ';'], ['\u0149']⟩,
   ⟨['n', 'a', 'p', 'p', 'r', 'o', 'x', ';'], ['\u2249']⟩,
   ⟨['n', 'a', 't', 'u', 'r', ';'], ['\u266E']⟩,
   ⟨['n', 'a', 't', 'u', 'r', 'a', 'l', ';'], ['\u266E']⟩,
   ⟨['n', 'a', 't', 'u', 'r', 'a', 'l', 's', ';'], ['\u2115']⟩,
   ⟨['n', 'b', 's', 'p'], ['\u00A0']⟩,
   ⟨['n', 'b', 's', 'p', ';'], ['\u00A0']⟩,
   ⟨['n', 'b', 'u', 'm', 'p', ';'], ['\u224E', '\u0338']⟩,
   ⟨['n', 'b', 'u', 'm', 'p', 'e', ';'], ['\u224F', '\u0338']⟩,
   ⟨['n', 'c', 'a', 'p', ';'], ['\u2A43']⟩,
   ⟨['n', 'c', 'a', 'r', 'o', 'n', ';'], ['\u0148']⟩,
   ⟨['n', 'c', 'e', 'd', 'i', 'l', ';'], ['\u0146']⟩,
   ⟨['n', 'c', 'o', 'n', 'g', ';'], ['\u2247']⟩,
   ⟨['n', 'c', 'o', 'n', 'g', 'd', 'o', 't', ';'], ['\u2A6D', '\u0338']⟩,
   ⟨['n', 'c', 'u', 'p', ';'], ['\u2A42']⟩,
   ⟨['n', 'c', 'y', ';'], ['\u043D']⟩,
   ⟨['n', 'd', 'a', 's', 'h', ';'], ['\u2013']⟩,
   ⟨['n', 'e', ';'], ['\u2260']⟩,
   ⟨['n', 'e', 'A', 'r', 'r', ';'], ['\u21D7']⟩,
   ⟨['n', 'e', 'a', 'r', 'h', 'k', ';'], ['\u2924']⟩,
   ⟨['n', 'e', 'a', 'r', 'r', ';'], ['\u2197']⟩,
   ⟨['n', 'e', 'a', 'r', 'r', 'o', 'w', ';'], ['\u2197']⟩,
   ⟨['n', 'e', 'd', 'o', 't', ';'], ['\u2250', '\u0338']⟩,
   ⟨['n', 'e', 'q', 'u', 'i', 'v', ';'], ['\u2262']⟩,
   ⟨['n', 'e', 's', 'e', 'a', 'r', ';'], ['\u2928']⟩,
   ⟨['n', 'e', 's', 'i', 'm', ';'], ['\u2242', '\u0338']⟩,
   ⟨['n', 'e', 'x', 'i', 's', 't', ';'], ['\u2204']⟩,
   ⟨['n', 'e', 'x', 'i', 's', 't', 's', ';'], ['\u2204']⟩,
   ⟨['n', 'f', 'r', ';'], ['𝔫']⟩,
   ⟨['n', 'g', 'E', ';'], ['\u2267', '\u0338']⟩,
   ⟨['n', 'g', 'e', ';'], ['\u2271']⟩,
   ⟨['n', 'g', 'e', 'q', ';'], ['\u2271']⟩,
   ⟨['n', 'g', 'e', 'q', 'q', ';'], ['\u2267', '\u0338']⟩,
   ⟨['n', 'g', 'e', 'q', 's', 'l', 'a', 'n', 't', ';'], ['\u2A7E', '\u0338']⟩,
   ⟨['n', 'g', 'e', 's', ';'], ['\u2A7E', '\u0338']⟩,
   ⟨['n', 'g', 's', 'i', 'm', ';'], ['\u2275']⟩,
   ⟨['n', 'g', 't', ';'], ['\u226F']⟩,
   ⟨['n', 'g', 't', 'r', ';'], ['\u226F']⟩,
   ⟨['n', 'h', 'A', 'r', 'r', ';'], ['\u21CE']⟩,
   ⟨['n', 'h', 'a', 'r', 'r', ';'], ['\u21AE']⟩,
   ⟨['n', 'h', 'p', 'a', 'r', ';'], ['\u2AF2']⟩,
   ⟨['n', 'i', ';'], ['\u220B']⟩,
   ⟨['n', 'i', 's', ';'], ['\u22FC']⟩,
   ⟨['n', 'i', 's', 'd', ';'], ['\u22FA']⟩,
   ⟨['n', 'i', 'v', ';'], ['\u220B']⟩,
   ⟨['n', 'j', 'c', 'y', ';'], ['\u045A']⟩,
   ⟨['n', 'l', 'A', 'r', 'r', ';'], ['\u21CD']⟩,
   ⟨['n', 'l', 'E', ';'], ['\u2266', '\u0338']⟩,
   ⟨['n', 'l', 'a', 'r', 'r', ';'], ['\u219A']⟩,
   ⟨['n', 'l', 'd', 'r', ';'], ['\u2025']⟩,
   ⟨['n', 'l', 'e', ';'], ['\u2270']⟩,
   ⟨['n', 'l', 'e', 'f', 't', 'a', 'r', 'r', 'o', 'w', ';'], ['\u219A']⟩,
   ⟨['n', 'l', 'e', 'f', 't', 'r', 'i', 'g', 'h', 't', 'a', 'r', 'r', 'o', 'w', ';'], ['\u21AE']⟩,
   ⟨['n', 'l', 'e', 'q', ';'], ['\u2270']⟩,
   ⟨['n', 'l', 'e', 'q', 'q', ';'], ['\u2266', '\u0338']⟩,
   ⟨['n', 'l', 'e', 'q', 's', 'l', 'a', 'n', 't', ';'], ['\u2A7D', '\u0338']⟩,
   ⟨['n', 'l', 'e', 's', ';'], ['\u2A7D', '\u0338']⟩,
   ⟨['n', 'l', 'e', 's', 's', ';'], ['\u226E']⟩,
   ⟨['n', 'l', 's', 'i', 'm', ';'], ['\u2274']⟩,
   ⟨['n', 'l', 't', ';'], ['\u226E']⟩,
   ⟨['n', 'l', 't', 'r', 'i', ';'], ['\u22EA']⟩,
   ⟨['n', 'l', 't', 'r', 'i', 'e', ';'], ['\u22EC']⟩,
   ⟨['n', 'm', 'i', 'd', ';'], ['\u2224']⟩,
   ⟨['n', 'o', 'p', 'f', ';'], ['𝕟']⟩,
   ⟨['n', 'o', 't'], ['\u00AC']⟩,
   ⟨['n', 'o', 't', ';'], ['\u00AC']⟩,
   ⟨['n', 'o', 't', 'i', 'n', ';'], ['\u2209']⟩,
   ⟨['n', 'o', 't', 'i', 'n', 'E', ';'], ['\u22F9', '\u0338']⟩,
   ⟨['n', 'o', 't', 'i', 'n', 'd', 'o', 't', ';'], ['\u22F5', '\u0338']⟩,
   ⟨['n', 'o', 't', 'i', 'n', 'v', 'a', ';'], ['\u2209']⟩,
   ⟨['n', 'o', 't', 'i', 'n', 'v', 'b', ';'], ['\u22F7']⟩,
   ⟨['n', 'o', 't', 'i', 'n', 'v', 'c', ';'], ['\u22F6']⟩,
   ⟨['n', 'o', 't', 'n', 'i', ';'], ['\u220C']⟩,
   ⟨['n', 'o', 't', 'n', 'i', 'v', 'a', ';'], ['\u220C']⟩,
   ⟨['n', 'o', 't', 'n', 'i', 'v', 'b', ';'], ['\u22FE']⟩,
   ⟨['n', 'o', 't', 'n', 'i', 'v', 'c', ';'], ['\u22FD']⟩,
   ⟨['n', 'p', 'a', 'r', ';'], ['\u2226']⟩,
   ⟨['n', 'p', 'a', 'r', 'a', 'l', 'l', 'e', 'l', ';'], ['\u2226']⟩,
   ⟨['n', 'p', 'a', 'r', 's', 'l', ';'], ['\u2AFD', '\u20E5']⟩,
   ⟨['n', 'p', 'a', 'r', 't', ';'], ['\u2202', '\u0338']⟩,
   ⟨['n', 'p', 'o', 'l', 'i', 'n', 't', ';'], ['\u2A14']⟩,
   ⟨['n', 'p', 'r', ';'], ['\u2280']⟩,
   ⟨['n', 'p', 'r', 'c', 'u', 'e', ';'], ['\u22E0']⟩,
   ⟨['n', 'p', 'r', 'e', ';'], ['\u2AAF', '\u0338']⟩,
   ⟨['n', 'p', 'r', 'e', 'c', ';'], ['\u2280']⟩,
   ⟨['n', 'p', 'r', 'e', 'c', 'e', 'q', ';'], ['\u2AAF', '\u0338']⟩,
   ⟨['n', 'r', 'A', 'r', 'r', ';'], ['\u21CF']⟩,
   ⟨['n', 'r', 'a', 'r', 'r', ';'], ['\u219B']⟩,
   ⟨['n', 'r', 'a', 'r', 'r', 'c', ';'], ['\u2933', '\u0338']⟩,
   ⟨['n', 'r', 'a', 'r', 'r', 'w', ';'], ['\u219D', '\u0338']⟩,
   ⟨['n', 'r', 'i', 'g', 'h', 't', 'a', 'r', 'r', 'o', 'w', ';'], ['\u219B']⟩,
   ⟨['n', 'r', 't', 'r', 'i', ';'], ['\u22EB']⟩,
   ⟨['n', 'r', 't', 'r', 'i', 'e', ';'], ['\u22ED']⟩,
   ⟨['n', 's', 'c', ';'], ['\u2281']⟩,
   ⟨['n', 's', 'c', 'c', 'u', 'e', ';'], ['\u22E1']⟩,
   ⟨['n', 's', 'c', 'e', ';'], ['\u2AB0', '\u0338']⟩,
   ⟨['n', 's', 'c', 'r', ';'], ['𝓃']⟩,
   ⟨['n', 's', 'h', 'o', 'r', 't', 'm', 'i', 'd', ';'], ['\u2224']⟩,
   ⟨['n', 's', 'h', 'o', 'r', 't', 'p', 'a', 'r', 'a', 'l', 'l', 'e', 'l', ';'], ['\u2226']⟩,
   ⟨['n', 's', 'i', 'm', ';'], ['\u2241']⟩,
   ⟨['n', 's', 'i', 'm', 'e', ';'], ['\u2244']⟩,
   ⟨['n', 's', 'i', 'm', 'e', 'q', ';'], ['\u2244']⟩,
   ⟨['n', 's', 'm', 'i', 'd', ';'], ['\u2224']⟩,
   ⟨['n', 's', 'p', 'a', 'r', ';'], ['\u2226']⟩,
   ⟨['n', 's', 'q', 's', 'u', 'b', 'e', ';'], ['\u22E2']⟩,
   ⟨['n', 's', 'q', 's', 'u', 'p', 'e', ';'], ['\u22E3']⟩,
   ⟨['n', 's', 'u', 'b', ';'], ['\u2284']⟩,
   ⟨['n', 's', 'u', 'b', 'E', ';'], ['\u2AC5', '\u0338']⟩,
   ⟨['n', 's', 'u', 'b', 'e', ';'], ['\u2288']⟩,
   ⟨['n', 's', 'u', 'b', 's', 'e', 't', ';'], ['\u2282', '\u20D2']⟩,
   ⟨['n', 's', 'u', 'b', 's', 'e', 't', 'e', 'q', ';'], ['\u2288']⟩,
   ⟨['n', 's', 'u', 'b', 's', 'e', 't', 'e', 'q', 'q', ';'], ['\u2AC5', '\u0338']⟩,
   ⟨['n', 's', 'u', 'c', 'c', ';'], ['\u2281']⟩,
   ⟨['n', 's', 'u', 'c', 'c', 'e', 'q', ';'], ['\u2AB0', '\u0338']⟩,
   ⟨['n', 's', 'u', 'p', ';'], ['\u2285']⟩,
   ⟨['n', 's', 'u', 'p', 'E', ';'], ['\u2AC6', '\u0338']⟩,
   ⟨['n', 's', 'u', 'p', 'e', ';'], ['\u2289']⟩,
   ⟨['n', 's', 'u', 'p', 's', 'e', 't', ';'], ['\u2283', '\u20D2']⟩,
   ⟨['n', 's', 'u', 'p', 's', 'e', 't', 'e', 'q', ';'], ['\u2289']⟩,
   ⟨['n', 's', 'u', 'p', 's', 'e', 't', 'e', 'q', 'q', ';'], ['\u2AC6', '\u0338']⟩,
   ⟨['n', 't', 'g', 'l', ';'], ['\u2279']⟩,
   ⟨['n', 't', 'i', 'l', 'd', 'e'], ['\u00F1']⟩,
   ⟨['n', 't', 'i', 'l', 'd', 'e', ';'], ['\u00F1']⟩,
   ⟨['n', 't', 'l', 'g', ';'], ['\u2278']⟩,
   ⟨['n', 't', 'r', 'i', 'a', 'n', 'g', 'l', 'e', 'l', 'e', 'f', 't', ';'], ['\u22EA']⟩,
   ⟨['n', 't', 'r', 'i', 'a', 'n', 'g', 'l', 'e', 'l', 'e', 'f', 't', 'e', 'q', ';'], ['\u22EC']⟩,
   ⟨['n', 't', 'r', 'i', 'a', 'n', 'g', 'l', 'e', 'r', 'i', 'g', 'h', 't', ';'], ['\u22EB']⟩,
   ⟨['n', 't', 'r', 'i', 'a', 'n', 'g', 'l', 'e', 'r', 'i', 'g', 'h', 't', 'e', 'q', ';'],
    ['\u22ED']⟩,
   ⟨['n', 'u', ';'], ['\u03BD']⟩,
   ⟨['n', 'u', 'm', ';'], ['#']⟩,
   ⟨['n', 'u', 'm', 'e', 'r', 'o', ';'], ['\u2116']⟩,
   ⟨['n', 'u', 'm', 's', 'p', ';'], ['\u2007']⟩,
   ⟨['n', 'v', 'D', 'a', 's', 'h', ';'], ['\u22AD']⟩,
   ⟨['n', 'v', 'H', 'a', 'r', 'r', ';'], ['\u2904']⟩,
   ⟨['n', 'v', 'a', 'p', ';'], ['\u224D', '\u20D2']⟩,
   ⟨['n', 'v', 'd', 'a', 's', 'h', ';'], ['\u22AC']⟩,
   ⟨['n', 'v', 'g', 'e', ';'], ['\u2265', '\u20D2']⟩,
   ⟨['n', 'v', 'g', 't', ';'], ['>', '\u20D2']⟩,
   ⟨['n', 'v', 'i', 'n', 'f', 'i', 'n', ';'], ['\u29DE']⟩,
   ⟨['n', 'v', 'l', 'A', 'r', 'r', ';'], ['\u2902']⟩,
   ⟨['n', 'v', 'l', 'e', ';'], ['\u2264', '\u20D2']⟩,
   ⟨['n', 'v', 'l', 't', ';'], ['<', '\u20D2']⟩,
   ⟨['n', 'v', 'l', 't', 'r', 'i', 'e', ';'], ['\u22B4', '\u20D2']⟩,
   ⟨['n', 'v', 'r', 'A', 'r', 'r', ';'], ['\u2903']⟩,
   ⟨['n', 'v', 'r', 't', 'r', 'i', 'e', ';'], ['\u22B5', '\u20D2']⟩,
   ⟨['n', 'v', 's', 'i', 'm', ';'], ['\u223C', '\u20D2']⟩,
   ⟨['n', 'w', 'A', 'r', 'r', ';'], ['\u21D6']⟩,
   ⟨['n', 'w', 'a', 'r', 'h', 'k', ';'], ['\u2923']⟩,
   ⟨['n', 'w', 'a', 'r', 'r', ';'], ['\u2196']⟩,
   ⟨['n', 'w', 'a', 'r', 'r', 'o', 'w', ';'], ['\u2196']⟩,
   ⟨['n', 'w', 'n', 'e', 'a', 'r', ';'], ['\u2927']⟩]

def lowerO : List Entry :=
  [⟨['o', 'S', ';'], ['\u24C8']⟩,
   ⟨['o', 'a', 'c', 'u', 't', 'e'], ['\u00F3']⟩,
   ⟨['o', 'a', 'c', 'u', 't', 'e', ';'], ['\u00F3']⟩,
   ⟨['o', 'a', 's', 't', ';'], ['\u229B']⟩,
   ⟨['o', 'c', 'i', 'r', ';'], ['\u229A']⟩,
   ⟨['o', 'c', 'i', 'r', 'c'], ['\u00F4']⟩,
   ⟨['o', 'c', 'i', 'r', 'c', ';'], ['\u00F4']⟩,
   ⟨['o', 'c', 'y', ';'], ['\u043E']⟩,
   ⟨['o', 'd', 'a', 's', 'h', ';'], ['\u229D']⟩,
   ⟨['o', 'd', 'b', 'l', 'a', 'c', ';'], ['\u0151']⟩,
   ⟨['o', 'd', 'i', 'v', ';'], ['\u2A38']⟩,
   ⟨['o', 'd', 'o', 't', ';'], ['\u2299']⟩,
   ⟨['o', 'd', 's', 'o', 'l', 'd', ';'], ['\u29BC']⟩,
   ⟨['o', 'e', 'l', 'i', 'g', ';'], ['\u0153']⟩,
   ⟨['o', 'f', 'c', 'i', 'r', ';'], ['\u29BF']⟩,
   ⟨['o', 'f', 'r', ';'], ['𝔬']⟩,
   ⟨['o', 'g', 'o', 'n', ';'], ['\u02DB']⟩,
   ⟨['o', 'g', 'r', 'a', 'v', 'e'], ['\u00F2']⟩,
   ⟨['o', 'g', 'r', 'a', 'v', 'e', ';'], ['\u00F2']⟩,
   ⟨['o', 'g', 't', ';'], ['\u29C1']⟩,
   ⟨['o', 'h', 'b', 'a', 'r', ';'], ['\u29B5']⟩,
   ⟨['o', 'h', 'm', ';'], ['\u03A9']⟩,
   ⟨['o', 'i', 'n', 't', ';'], ['\u222E']⟩,
   ⟨['o', 'l', 'a', 'r', 'r', ';'], ['\u21BA']⟩,
   ⟨['o', 'l', 'c', 'i', 'r', ';'], ['\u29BE']⟩,
   ⟨['o', 'l', 'c', 'r', 'o', 's', 's', ';'], ['\u29BB']⟩,
   ⟨['o', 'l', 'i', 'n', 'e', ';'], ['\u203E']⟩,
   ⟨['o', 'l', 't', ';'], ['\u29C0']⟩,
   ⟨['o', 'm', 'a', 'c', 'r', ';'], ['\u014D']⟩,
   ⟨['o', 'm', 'e', 'g', 'a', ';'], ['\u03C9']⟩,
   ⟨['o', 'm', 'i', 'c', 'r', 'o', 'n', ';'], ['\u03BF']⟩,
   ⟨['o', 'm', 'i', 'd', ';'], ['\u29B6']⟩,
   ⟨['o', 'm', 'i', 'n', 'u', 's', ';'], ['\u2296']⟩,
   ⟨['o', 'o', 'p', 'f', ';'], ['𝕠']⟩,
   ⟨['o', 'p', 'a', 'r', ';'], ['\u29B7']⟩,
   ⟨['o', 'p', 'e', 'r', 'p', ';'], ['\u29B9']⟩,
   ⟨['o', 'p', 'l', 'u', 's', ';'], ['\u2295']⟩,
   ⟨['o', 'r', ';'], ['\u2228']⟩,
   ⟨['o', 'r', 'a', 'r', 'r', ';'], ['\u21BB']⟩,
   ⟨['o', 'r', 'd', ';'], ['\u2A5D']⟩,
   ⟨['o', 'r', 'd', 'e', 'r', ';'], ['\u2134']⟩,
   ⟨['o', 'r', 'd', 'e', 'r', 'o', 'f', ';'], ['\u2134']⟩,
   ⟨['o', 'r', 'd', 'f'], ['\u00AA']⟩,
   ⟨['o', 'r', 'd', 'f', ';'], ['\u00AA']⟩,
   ⟨['o', 'r', 'd', 'm'], ['\u00BA']⟩,
   ⟨['o', 'r', 'd', 'm', ';'], ['\u00BA']⟩,
   ⟨['o', 'r', 'i', 'g', 'o', 'f', ';'], ['\u22B6']⟩,
   ⟨['o', 'r', 'o', 'r', ';'], ['\u2A56']⟩,
   ⟨['o', 'r', 's', 'l', 'o', 'p', 'e', ';'], ['\u2A57']⟩,
   ⟨['o', 'r', 'v', ';'], ['\u2A5B']⟩,
   ⟨['o', 's', 'c', 'r', ';'], ['\u2134']⟩,
   ⟨['o', 's', 'l', 'a', 's', 'h'], ['\u00F8']⟩,
   ⟨['o', 's', 'l', 'a', 's', 'h', ';'], ['\u00F8']⟩,
   ⟨['o', 's', 'o', 'l', ';'], ['\u2298']⟩,
   ⟨['o', 't', 'i', 'l', 'd', 'e'], ['\u00F5']⟩,
   ⟨['o', 't', 'i', 'l', 'd', 'e', ';'], ['\u00F5']⟩,
   ⟨['o', 't', 'i', 'm', 'e', 's', ';'], ['\u2297']⟩,
   ⟨['o', 't', 'i', 'm', 'e', 's', 'a', 's', ';'], ['\u2A36']⟩,
   ⟨['o', 'u', 'm', 'l'], ['\u00F6']⟩,
   ⟨['o', 'u', 'm', 'l', ';'], ['\u00F6']⟩,
   ⟨['o', 'v', 'b', 'a', 'r', ';'], ['\u233D']⟩]

def lowerP : List Entry :=
  [⟨['p', 'a', 'r', ';'], ['\u2225']⟩,
   ⟨['p', 'a', 'r', 'a'], ['\u00B6']⟩,
   ⟨['p', 'a', 'r', 'a', ';'], ['\u00B6']⟩,
   ⟨['p', 'a', 'r', 'a', 'l', 'l', 'e', 'l', ';'], ['\u2225']⟩,
   ⟨['p', 'a', 'r', 's', 'i', 'm', ';'], ['\u2AF3']⟩,
   ⟨['p', 'a', 'r', 's', 'l', ';'], ['\u2AFD']⟩,
   ⟨['p', 'a', 'r', 't', ';'], ['\u2202']⟩,
   ⟨['p', 'c', 'y', ';'], ['\u043F']⟩,
   ⟨['p', 'e', 'r', 'c', 'n', 't', ';'], ['%']⟩,
   ⟨['p', 'e', 'r', 'i', 'o', 'd', ';'], ['.']⟩,
   ⟨['p', 'e', 'r', 'm', 'i', 'l', ';'], ['\u2030']⟩,
   ⟨['p', 'e', 'r', 'p', ';'], ['\u22A5']⟩,
   ⟨['p', 'e', 'r', 't', 'e', 'n', 'k', ';'], ['\u2031']⟩,
   ⟨['p', 'f', 'r', ';'], ['𝔭']⟩,
   ⟨['p', 'h', 'i', ';'], ['\u03C6']⟩,
   ⟨['p', 'h', 'i', 'v', ';'], ['\u03D5']⟩,
   ⟨['p', 'h', 'm', 'm', 'a', 't', ';'], ['\u2133']⟩,
   ⟨['p', 'h', 'o', 'n', 'e', ';'], ['\u260E']⟩,
   ⟨['p', 'i', ';'], ['\u03C0']⟩,
   ⟨['p', 'i', 't', 'c', 'h', 'f', 'o', 'r', 'k', ';'], ['\u22D4']⟩,
   ⟨['p', 'i', 'v', ';'], ['\u03D6']⟩,
   ⟨['p', 'l', 'a', 'n', 'c', 'k', ';'], ['\u210F']⟩,
   ⟨['p', 'l', 'a', 'n', 'c', 'k', 'h', ';'], ['\u210E']⟩,
   ⟨['p', 'l', 'a', 'n', 'k', 'v', ';'], ['\u210F']⟩,
   ⟨['p', 'l', 'u', 's', ';'], ['+']⟩,
   ⟨['p', 'l', 'u', 's', 'a', 'c', 'i', 'r', ';'], ['\u2A23']⟩,
   ⟨['p', 'l', 'u', 's', 'b', ';'], ['\u229E']⟩,
   ⟨['p', 'l', 'u', 's', 'c', 'i', 'r', ';'], ['\u2A22']⟩,
   ⟨['p', 'l', 'u', 's', 'd', 'o', ';'], ['\u2214']⟩,
   ⟨['p', 'l', 'u', 's', 'd', 'u', ';'], ['\u2A25']⟩,
   ⟨['p', 'l', 'u', 's', 'e', ';'], ['\u2A72']⟩,
   ⟨['p', 'l', 'u', 's', 'm', 'n'], ['\u00B1']⟩,
   ⟨['p', 'l', 'u', 's', 'm', 'n', ';'], ['\u00B1']⟩,
   ⟨['p', 'l', 'u', 's', 's', 'i', 'm', ';'], ['\u2A26']⟩,
   ⟨['p', 'l', 'u', 's', 't', 'w', 'o', ';'], ['\u2A27']⟩,
   ⟨['p', 'm', ';'], ['\u00B1']⟩,
   ⟨['p', 'o', 'i', 'n', 't', 'i', 'n', 't', ';'], ['\u2A15']⟩,
   ⟨['p', 'o', 'p', 'f', ';'], ['𝕡']⟩,
   ⟨['p', 'o', 'u', 'n', 'd'], ['\u00A3']⟩,
   ⟨['p', 'o', 'u', 'n', 'd', ';'], ['\u00A3']⟩,
   ⟨['p', 'r', ';'], ['\u227A']⟩,
   ⟨['p', 'r', 'E', ';'], ['\u2AB3']⟩,
   ⟨['p', 'r', 'a', 'p', ';'], ['\u2AB7']⟩,
   ⟨['p', 'r', 'c', 'u', 'e', ';'], ['\u227C']⟩,
   ⟨['p', 'r', 'e', ';'], ['\u2AAF']⟩,
   ⟨['p', 'r', 'e', 'c', ';'], ['\u227A']⟩,
   ⟨['p', 'r', 'e', 'c', 'a', 'p', 'p', 'r', 'o', 'x', ';'], ['\u2AB7']⟩,
   ⟨['p', 'r', 'e', 'c', 'c', 'u', 'r', 'l', 'y', 'e', 'q', ';'], ['\u227C']⟩,
   ⟨['p', 'r', 'e', 'c', 'e', 'q', ';'], ['\u2AAF']⟩,
   ⟨['p', 'r', 'e', 'c', 'n', 'a', 'p', 'p', 'r', 'o', 'x', ';'], ['\u2AB9']⟩,
   ⟨['p', 'r', 'e', 'c', 'n', 'e', 'q', 'q', ';'], ['\u2AB5']⟩,
   ⟨['p', 'r', 'e', 'c', 'n', 's', 'i', 'm', ';'], ['\u22E8']⟩,
   ⟨['p', 'r', 'e', 'c', 's', 'i', 'm', ';'], ['\u227E']⟩,
   ⟨['p', 'r', 'i', 'm', 'e', ';'], ['\u2032']⟩,
   ⟨['p', 'r', 'i', 'm', 'e', 's', ';'], ['\u2119']⟩,
   ⟨['p', 'r', 'n', 'E', ';'], ['\u2AB5']⟩,
   ⟨['p', 'r', 'n', 'a', 'p', ';'], ['\u2AB9']⟩,
   ⟨['p', 'r', 'n', 's', 'i', 'm', ';'], ['\u22E8']⟩,
   ⟨['p', 'r', 'o', 'd', ';'], ['\u220F']⟩,
   ⟨['p', 'r', 'o', 'f', 'a', 'l', 'a', 'r', ';'], ['\u232E']⟩,
   ⟨['p', 'r', 'o', 'f', 'l', 'i', 'n', 'e', ';'], ['\u2312']⟩,
   ⟨['p', 'r', 'o', 'f', 's', 'u', 'r', 'f', ';'], ['\u2313']⟩,
   ⟨['p', 'r', 'o', 'p', ';'], ['\u221D']⟩,
   ⟨['p', 'r', 'o', 'p', 't', 'o', ';'], ['\u221D']⟩,
   ⟨['p', 'r', 's', 'i', 'm', ';'], ['\u227E']⟩,
   ⟨['p', 'r', 'u', 'r', 'e', 'l', ';'], ['\u22B0']⟩,
   ⟨['p', 's', 'c', 'r', ';'], ['𝓅']⟩,
   ⟨['p', 's', 'i', ';'], ['\u03C8']⟩,
   ⟨['p', 'u', 'n', 'c', 's', 'p', ';'], ['\u2008']⟩]

def lowerQ : List Entry :=
  [⟨['q', 'f', 'r', ';'], ['𝔮']⟩,
   ⟨['q', 'i', 'n', 't', ';'], ['\u2A0C']⟩,
   ⟨['q', 'o', 'p', 'f', ';'], ['𝕢']⟩,
   ⟨['q', 'p', 'r', 'i', 'm', 'e', ';'], ['\u2057']⟩,
   ⟨['q', 's', 'c', 'r', ';'], ['𝓆']⟩,
   ⟨['q', 'u', 'a', 't', 'e', 'r', 'n', 'i', 'o', 'n', 's', ';'], ['\u210D']⟩,
   ⟨['q', 'u', 'a', 't', 'i', 'n', 't', ';'], ['\u2A16']⟩,
   ⟨['q', 'u', 'e', 's', 't', ';'], ['?']⟩,
   ⟨['q', 'u', 'e', 's', 't', 'e', 'q', ';'], ['\u225F']⟩,
   ⟨['q', 'u', 'o', 't'], ['\x22']⟩,
   ⟨['q', 'u', 'o', 't', ';'], ['\x22']⟩]

/-- The names that begin with `n` to `q`. -/
def nToQ : List Entry :=
  lowerN ++ lowerO ++ lowerP ++ lowerQ

end Hypertext.Entity.Table
