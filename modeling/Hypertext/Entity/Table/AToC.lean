import Hypertext.Entity.Entry

/-!
# Named character references that begin with `a`, `b` or `c`
-/

namespace Hypertext.Entity.Table

def lowerA : List Entry :=
  [⟨['a', 'a', 'c', 'u', 't', 'e'], ['\u00E1']⟩,
   ⟨['a', 'a', 'c', 'u', 't', 'e', ';'], ['\u00E1']⟩,
   ⟨['a', 'b', 'r', 'e', 'v', 'e', ';'], ['\u0103']⟩,
   ⟨['a', 'c', ';'], ['\u223E']⟩,
   ⟨['a', 'c', 'E', ';'], ['\u223E', '\u0333']⟩,
   ⟨['a', 'c', 'd', ';'], ['\u223F']⟩,
   ⟨['a', 'c', 'i', 'r', 'c'], ['\u00E2']⟩,
   ⟨['a', 'c', 'i', 'r', 'c', ';'], ['\u00E2']⟩,
   ⟨['a', 'c', 'u', 't', 'e'], ['\u00B4']⟩,
   ⟨['a', 'c', 'u', 't', 'e', ';'], ['\u00B4']⟩,
   ⟨['a', 'c', 'y', ';'], ['\u0430']⟩,
   ⟨['a', 'e', 'l', 'i', 'g'], ['\u00E6']⟩,
   ⟨['a', 'e', 'l', 'i', 'g', ';'], ['\u00E6']⟩,
   ⟨['a', 'f', ';'], ['\u2061']⟩,
   ⟨['a', 'f', 'r', ';'], ['𝔞']⟩,
   ⟨['a', 'g', 'r', 'a', 'v', 'e'], ['\u00E0']⟩,
   ⟨['a', 'g', 'r', 'a', 'v', 'e', ';'], ['\u00E0']⟩,
   ⟨['a', 'l', 'e', 'f', 's', 'y', 'm', ';'], ['\u2135']⟩,
   ⟨['a', 'l', 'e', 'p', 'h', ';'], ['\u2135']⟩,
   ⟨['a', 'l', 'p', 'h', 'a', ';'], ['\u03B1']⟩,
   ⟨['a', 'm', 'a', 'c', 'r', ';'], ['\u0101']⟩,
   ⟨['a', 'm', 'a', 'l', 'g', ';'], ['\u2A3F']⟩,
   ⟨['a', 'm', 'p'], ['&']⟩,
   ⟨['a', 'm', 'p', ';'], ['&']⟩,
   ⟨['a', 'n', 'd', ';'], ['\u2227']⟩,
   ⟨['a', 'n', 'd', 'a', 'n', 'd', ';'], ['\u2A55']⟩,
   ⟨['a', 'n', 'd', 'd', ';'], ['\u2A5C']⟩,
   ⟨['a', 'n', 'd', 's', 'l', 'o', 'p', 'e', ';'], ['\u2A58']⟩,
   ⟨['a', 'n', 'd', 'v', ';'], ['\u2A5A']⟩,
   ⟨['a', 'n', 'g', ';'], ['\u2220']⟩,
   ⟨['a', 'n', 'g', 'e', ';'], ['\u29A4']⟩,
   ⟨['a', 'n', 'g', 'l', 'e', ';'], ['\u2220']⟩,
   ⟨['a', 'n', 'g', 'm', 's', 'd', ';'], ['\u2221']⟩,
   ⟨['a', 'n', 'g', 'm', 's', 'd', 'a', 'a', ';'], ['\u29A8']⟩,
   ⟨['a', 'n', 'g', 'm', 's', 'd', 'a', 'b', ';'], ['\u29A9']⟩,
   ⟨['a', 'n', 'g', 'm', 's', 'd', 'a', 'c', ';'], ['\u29AA']⟩,
   ⟨['a', 'n', 'g', 'm', 's', 'd', 'a', 'd', ';'], ['\u29AB']⟩,
   ⟨['a', 'n', 'g', 'm', 's', 'd', 'a', 'e', ';'], ['\u29AC']⟩,
   ⟨['a', 'n', 'g', 'm', 's', 'd', 'a', 'f', ';'], ['\u29AD']⟩,
   ⟨['a', 'n', 'g', 'm', 's', 'd', 'a', 'g', ';'], ['\u29AE']⟩,
   ⟨['a', 'n', 'g', 'm', 's', 'd', 'a', 'h', ';'], ['\u29AF']⟩,
   ⟨['a', 'n', 'g', 'r', 't', ';'], ['\u221F']⟩,
   ⟨['a', 'n', 'g', 'r', 't', 'v', 'b', ';'], ['\u22BE']⟩,
   ⟨['a', 'n', 'g', 'r', 't', 'v', 'b', 'd', ';'], ['\u299D']⟩,
   ⟨['a', 'n', 'g', 's', 'p', 'h', ';'], ['\u2222']⟩,
   ⟨['a', 'n', 'g', 's', 't', ';'], ['\u00C5']⟩,
   ⟨['a', 'n', 'g', 'z', 'a', 'r', 'r', ';'], ['\u237C']⟩,
   ⟨['a', 'o', 'g', 'o', 'n', ';'], ['\u0105']⟩,
   ⟨['a', 'o', 'p', 'f', ';'], ['𝕒']⟩,
   ⟨['a', 'p', ';'], ['\u2248']⟩,
   ⟨['a', 'p', 'E', ';'], ['\u2A70']⟩,
   ⟨['a', 'p', 'a', 'c', 'i', 'r', ';'], ['\u2A6F']⟩,
   ⟨['a', 'p', 'e', ';'], ['\u224A']⟩,
   ⟨['a', 'p', 'i', 'd', ';'], ['\u224B']⟩,
   ⟨['a', 'p', 'o', 's', ';'], ['\x27']⟩,
   ⟨['a', 'p', 'p', 'r', 'o', 'x', ';'], ['\u2248']⟩,
   ⟨['a', 'p', 'p', 'r', 'o', 'x', 'e', 'q', ';'], ['\u224A']⟩,
   ⟨['a', 'r', 'i', 'n', 'g'], ['\u00E5']⟩,
   ⟨['a', 'r', 'i', 'n', 'g', ';'], ['\u00E5']⟩,
   ⟨['a', 's', 'c', 'r', ';'], ['𝒶']⟩,
   ⟨['a', 's', 't', ';'], ['*']⟩,
   ⟨['a', 's', 'y', 'm', 'p', ';'], ['\u2248']⟩,
   ⟨['a', 's', 'y', 'm', 'p', 'e', 'q', ';'], ['\u224D']⟩,
   ⟨['a', 't', 'i', 'l', 'd', 'e'], ['\u00E3']⟩,
   ⟨['a', 't', 'i', 'l', 'd', 'e', ';'], ['\u00E3']⟩,
   ⟨['a', 'u', 'm', 'l'], ['\u00E4']⟩,
   ⟨['a', 'u', 'm', 'l', ';'], ['\u00E4']⟩,
   ⟨['a', 'w', 'c', 'o', 'n', 'i', 'n', 't', ';'], ['\u2233']⟩,
   ⟨['a', 'w', 'i', 'n', 't', ';'], ['\u2A11']⟩]

def lowerB : List Entry :=
  [⟨['b', 'N', 'o', 't', ';'], ['\u2AED']⟩,
   ⟨['b', 'a', 'c', 'k', 'c', 'o', 'n', 'g', ';'], ['\u224C']⟩,
   ⟨['b', 'a', 'c', 'k', 'e', 'p', 's', 'i', 'l', 'o', 'n', ';'], ['\u03F6']⟩,
   ⟨['b', 'a', 'c', 'k', 'p', 'r', 'i', 'm', 'e', ';'], ['\u2035']⟩,
   ⟨['b', 'a', 'c', 'k', 's', 'i', 'm', ';'], ['\u223D']⟩,
   ⟨['b', 'a', 'c', 'k', 's', 'i', 'm', 'e', 'q', ';'], ['\u22CD']⟩,
   ⟨['b', 'a', 'r', 'v', 'e', 'e', ';'], ['\u22BD']⟩,
   ⟨['b', 'a', 'r', 'w', 'e', 'd', ';'], ['\u2305']⟩,
   ⟨['b', 'a', 'r', 'w', 'e', 'd', 'g', 'e', ';'], ['\u2305']⟩,
   ⟨['b', 'b', 'r', 'k', ';'], ['\u23B5']⟩,
   ⟨['b', 'b', 'r', 'k', 't', 'b', 'r', 'k', ';'], ['\u23B6']⟩,
   ⟨['b', 'c', 'o', 'n', 'g', ';'], ['\u224C']⟩,
   ⟨['b', 'c', 'y', ';'], ['\u0431']⟩,
   ⟨['b', 'd', 'q', 'u', 'o', ';'], ['\u201E']⟩,
   ⟨['b', 'e', 'c', 'a', 'u', 's', ';'], ['\u2235']⟩,
   ⟨['b', 'e', 'c', 'a', 'u', 's', 'e', ';'], ['\u2235']⟩,
   ⟨['b', 'e', 'm', 'p', 't', 'y', 'v', ';'], ['\u29B0']⟩,
   ⟨['b', 'e', 'p', 's', 'i', ';'], ['\u03F6']⟩,
   ⟨['b', 'e', 'r', 'n', 'o', 'u', ';'], ['\u212C']⟩,
   ⟨['b', 'e', 't', 'a', ';'], ['\u03B2']⟩,
   ⟨['b', 'e', 't', 'h', ';'], ['\u2136']⟩,
   ⟨['b', 'e', 't', 'w', 'e', 'e', 'n', ';'], ['\u226C']⟩,
   ⟨['b', 'f', 'r', ';'], ['𝔟']⟩,
   ⟨['b', 'i', 'g', 'c', 'a', 'p', ';'], ['\u22C2']⟩,
   ⟨['b', 'i', 'g', 'c', 'i', 'r', 'c', ';'], ['\u25EF']⟩,
   ⟨['b', 'i', 'g', 'c', 'u', 'p', ';'], ['\u22C3']⟩,
   ⟨['b', 'i', 'g', 'o', 'd', 'o', 't', ';'], ['\u2A00']⟩,
   ⟨['b', 'i', 'g', 'o', 'p', 'l', 'u', 's', ';'], ['\u2A01']⟩,
   ⟨['b', 'i', 'g', 'o', 't', 'i', 'm', 'e', 's', ';'], ['\u2A02']⟩,
   ⟨['b', 'i', 'g', 's', 'q', 'c', 'u', 'p', ';'], ['\u2A06']⟩,
   ⟨['b', 'i', 'g', 's', 't', 'a', 'r', ';'], ['\u2605']⟩,
   ⟨['b', 'i', 'g', 't', 'r', 'i', 'a', 'n', 'g', 'l', 'e', 'd', 'o', 'w', 'n', ';'], ['\u25BD']⟩,
   ⟨['b', 'i', 'g', 't', 'r', 'i', 'a', 'n', 'g', 'l', 'e', 'u', 'p', ';'], ['\u25B3']⟩,
   ⟨['b', 'i', 'g', 'u', 'p', 'l', 'u', 's', ';'], ['\u2A04']⟩,
   ⟨['b', 'i', 'g', 'v', 'e', 'e', ';'], ['\u22C1']⟩,
   ⟨['b', 'i', 'g', 'w', 'e', 'd', 'g', 'e', ';'], ['\u22C0']⟩,
   ⟨['b', 'k', 'a', 'r', 'o', 'w', ';'], ['\u290D']⟩,
   ⟨['b', 'l', 'a', 'c', 'k', 'l', 'o', 'z', 'e', 'n', 'g', 'e', ';'], ['\u29EB']⟩,
   ⟨['b', 'l', 'a', 'c', 'k', 's', 'q', 'u', 'a', 'r', 'e', ';'], ['\u25AA']⟩,
   ⟨['b', 'l', 'a', 'c', 'k', 't', 'r', 'i', 'a', 'n', 'g', 'l', 'e', ';'], ['\u25B4']⟩,
   ⟨['b', 'l', 'a', 'c', 'k', 't', 'r', 'i', 'a', 'n', 'g', 'l', 'e', 'd', 'o', 'w', 'n', ';'],
    ['\u25BE']⟩,
   ⟨['b', 'l', 'a', 'c', 'k', 't', 'r', 'i', 'a', 'n', 'g', 'l', 'e', 'l', 'e', 'f', 't', ';'],
    ['\u25C2']⟩,
   ⟨['b', 'l', 'a', 'c', 'k', 't', 'r', 'i', 'a', 'n', 'g', 'l', 'e', 'r', 'i', 'g', 'h', 't', ';'],
    ['\u25B8']⟩,
   ⟨['b', 'l', 'a', 'n', 'k', ';'], ['\u2423']⟩,
   ⟨['b', 'l', 'k', '1', '2', ';'], ['\u2592']⟩,
   ⟨['b', 'l', 'k', '1', '4', ';'], ['\u2591']⟩,
   ⟨['b', 'l', 'k', '3', '4', ';'], ['\u2593']⟩,
   ⟨['b', 'l', 'o', 'c', 'k', ';'], ['\u2588']⟩,
   ⟨['b', 'n', 'e', ';'], ['=', '\u20E5']⟩,
   ⟨['b', 'n', 'e', 'q', 'u', 'i', 'v', ';'], ['\u2261', '\u20E5']⟩,
   ⟨['b', 'n', 'o', 't', ';'], ['\u2310']⟩,
   ⟨['b', 'o', 'p', 'f', ';'], ['𝕓']⟩,
   ⟨['b', 'o', 't', ';'], ['\u22A5']⟩,
   ⟨['b', 'o', 't', 't', 'o', 'm', ';'], ['\u22A5']⟩,
   ⟨['b', 'o', 'w', 't', 'i', 'e', ';'], ['\u22C8']⟩,
   ⟨['b', 'o', 'x', 'D', 'L', ';'], ['\u2557']⟩,
   ⟨['b', 'o', 'x', 'D', 'R', ';'], ['\u2554']⟩,
   ⟨['b', 'o', 'x', 'D', 'l', ';'], ['\u2556']⟩,
   ⟨['b', 'o', 'x', 'D', 'r', ';'], ['\u2553']⟩,
   ⟨['b', 'o', 'x', 'H', ';'], ['\u2550']⟩,
   ⟨['b', 'o', 'x', 'H', 'D', ';'], ['\u2566']⟩,
   ⟨['b', 'o', 'x', 'H', 'U', ';'], ['\u2569']⟩,
   ⟨['b', 'o', 'x', 'H', 'd', ';'], ['\u2564']⟩,
   ⟨['b', 'o', 'x', 'H', 'u', ';'], ['\u2567']⟩,
   ⟨['b', 'o', 'x', 'U', 'L', ';'], ['\u255D']⟩,
   ⟨['b', 'o', 'x', 'U', 'R', ';'], ['\u255A']⟩,
   ⟨['b', 'o', 'x', 'U', 'l', ';'], ['\u255C']⟩,
   ⟨['b', 'o', 'x', 'U', 'r', ';'], ['\u2559']⟩,
   ⟨['b', 'o', 'x', 'V', ';'], ['\u2551']⟩,
   ⟨['b', 'o', 'x', 'V', 'H', ';'], ['\u256C']⟩,
   ⟨['b', 'o', 'x', 'V', 'L', ';'], ['\u2563']⟩,
   ⟨['b', 'o', 'x', 'V', 'R', ';'], ['\u2560']⟩,
   ⟨['b', 'o', 'x', 'V', 'h', ';'], ['\u256B']⟩,
   ⟨['b', 'o', 'x', 'V', 'l', ';'], ['\u2562']⟩,
   ⟨['b', 'o', 'x', 'V', 'r', ';'], ['\u255F']⟩,
   ⟨['b', 'o', 'x', 'b', 'o', 'x', ';'], ['\u29C9']⟩,
   ⟨['b', 'o', 'x', 'd', 'L', ';'], ['\u2555']⟩,
   ⟨['b', 'o', 'x', 'd', 'R', ';'], ['\u2552']⟩,
   ⟨['b', 'o', 'x', 'd', 'l', ';'], ['\u2510']⟩,
   ⟨['b', 'o', 'x', 'd', 'r', ';'], ['\u250C']⟩,
   ⟨['b', 'o', 'x', 'h', ';'], ['\u2500']⟩,
   ⟨['b', 'o', 'x', 'h', 'D', ';'], ['\u2565']⟩,
   ⟨['b', 'o', 'x', 'h', 'U', ';'], ['\u2568']⟩,
   ⟨['b', 'o', 'x', 'h', 'd', ';'], ['\u252C']⟩,
   ⟨['b', 'o', 'x', 'h', 'u', ';'], ['\u2534']⟩,
   ⟨['b', 'o', 'x', 'm', 'i', 'n', 'u', 's', ';'], ['\u229F']⟩,
   ⟨['b', 'o', 'x', 'p', 'l', 'u', 's', ';'], ['\u229E']⟩,
   ⟨['b', 'o', 'x', 't', 'i', 'm', 'e', 's', ';'], ['\u22A0']⟩,
   ⟨['b', 'o', 'x', 'u', 'L', ';'], ['\u255B']⟩,
   ⟨['b', 'o', 'x', 'u', 'R', ';'], ['\u2558']⟩,
   ⟨['b', 'o', 'x', 'u', 'l', ';'], ['\u2518']⟩,
   ⟨['b', 'o', 'x', 'u', 'r', ';'], ['\u2514']⟩,
   ⟨['b', 'o', 'x', 'v', ';'], ['\u2502']⟩,
   ⟨['b', 'o', 'x', 'v', 'H', ';'], ['\u256A']⟩,
   ⟨['b', 'o', 'x', 'v', 'L', ';'], ['\u2561']⟩,
   ⟨['b', 'o', 'x', 'v', 'R', ';'], ['\u255E']⟩,
   ⟨['b', 'o', 'x', 'v', 'h', ';'], ['\u253C']⟩,
   ⟨['b', 'o', 'x', 'v', 'l', ';'], ['\u2524']⟩,
   ⟨['b', 'o', 'x', 'v', 'r', ';'], ['\u251C']⟩,
   ⟨['b', 'p', 'r', 'i', 'm', 'e', ';'], ['\u2035']⟩,
   ⟨['b', 'r', 'e', 'v', 'e', ';'], ['\u02D8']⟩,
   ⟨['b', 'r', 'v', 'b', 'a', 'r'], ['\u00A6']⟩,
   ⟨['b', 'r', 'v', 'b', 'a', 'r', ';'], ['\u00A6']⟩,
   ⟨['b', 's', 'c', 'r', ';'], ['𝒷']⟩,
   ⟨['b', 's', 'e', 'm', 'i', ';'], ['\u204F']⟩,
   ⟨['b', 's', 'i', 'm', ';'], ['\u223D']⟩,
   ⟨['b', 's', 'i', 'm', 'e', ';'], ['\u22CD']⟩,
   ⟨['b', 's', 'o', 'l', ';'], ['\x5c']⟩,
   ⟨['b', 's', 'o', 'l', 'b', ';'], ['\u29C5']⟩,
   ⟨['b', 's', 'o', 'l', 'h', 's', 'u', 'b', ';'], ['\u27C8']⟩,
   ⟨['b', 'u', 'l', 'l', ';'], ['\u2022']⟩,
   ⟨['b', 'u', 'l', 'l', 'e', 't', ';'], ['\u2022']⟩,
   ⟨['b', 'u', 'm', 'p', ';'], ['\u224E']⟩,
   ⟨['b', 'u', 'm', 'p', 'E', ';'], ['\u2AAE']⟩,
   ⟨['b', 'u', 'm', 'p', 'e', ';'], ['\u224F']⟩,
   ⟨['b', 'u', 'm', 'p', 'e', 'q', ';'], ['\u224F']⟩]

def lowerC : List Entry :=
  [⟨['c', 'a', 'c', 'u', 't', 'e', ';'], ['\u0107']⟩,
   ⟨['c', 'a', 'p', ';'], ['\u2229']⟩,
   ⟨['c', 'a', 'p', 'a', 'n', 'd', ';'], ['\u2A44']⟩,
   ⟨['c', 'a', 'p', 'b', 'r', 'c', 'u', 'p', ';'], ['\u2A49']⟩,
   ⟨['c', 'a', 'p', 'c', 'a', 'p', ';'], ['\u2A4B']⟩,
   ⟨['c', 'a', 'p', 'c', 'u', 'p', ';'], ['\u2A47']⟩,
   ⟨['c', 'a', 'p', 'd', 'o', 't', ';'], ['\u2A40']⟩,
   ⟨['c', 'a', 'p', 's', ';'], ['\u2229', '\uFE00']⟩,
   ⟨['c', 'a', 'r', 'e', 't', ';'], ['\u2041']⟩,
   ⟨['c', 'a', 'r', 'o', 'n', ';'], ['\u02C7']⟩,
   ⟨['c', 'c', 'a', 'p', 's', ';'], ['\u2A4D']⟩,
   ⟨['c', 'c', 'a', 'r', 'o', 'n', ';'], ['\u010D']⟩,
   ⟨['c', 'c', 'e', 'd', 'i', 'l'], ['\u00E7']⟩,
   ⟨['c', 'c', 'e', 'd', 'i', 'l', ';'], ['\u00E7']⟩,
   ⟨['c', 'c', 'i', 'r', 'c', ';'], ['\u0109']⟩,
   ⟨['c', 'c', 'u', 'p', 's', ';'], ['\u2A4C']⟩,
   ⟨['c', 'c', 'u', 'p', 's', 's', 'm', ';'], ['\u2A50']⟩,
   ⟨['c', 'd', 'o', 't', ';'], ['\u010B']⟩,
   ⟨['c', 'e', 'd', 'i', 'l'], ['\u00B8']⟩,
   ⟨['c', 'e', 'd', 'i', 'l', ';'], ['\u00B8']⟩,
   ⟨['c', 'e', 'm', 'p', 't', 'y', 'v', ';'], ['\u29B2']⟩,
   ⟨['c', 'e', 'n', 't'], ['\u00A2']⟩,
   ⟨['c', 'e', 'n', 't', ';'], ['\u00A2']⟩,
   ⟨['c', 'e', 'n', 't', 'e', 'r', 'd', 'o', 't', ';'], ['\u00B7']⟩,
   ⟨['c', 'f', 'r', ';'], ['𝔠']⟩,
   ⟨['c', 'h', 'c', 'y', ';'], ['\u0447']⟩,
   ⟨['c', 'h', 'e', 'c', 'k', ';'], ['\u2713']⟩,
   ⟨['c', 'h', 'e', 'c', 'k', 'm', 'a', 'r', 'k', ';'], ['\u2713']⟩,
   ⟨['c', 'h', 'i', ';'], ['\u03C7']⟩,
   ⟨['c', 'i', 'r', ';'], ['\u25CB']⟩,
   ⟨['c', 'i', 'r', 'E', ';'], ['\u29C3']⟩,
   ⟨['c', 'i', 'r', 'c', ';'], ['\u02C6']⟩,
   ⟨['c', 'i', 'r', 'c', 'e', 'q', ';'], ['\u2257']⟩,
   ⟨['c', 'i', 'r', 'c', 'l', 'e', 'a', 'r', 'r', 'o', 'w', 'l', 'e', 'f', 't', ';'], ['\u21BA']⟩,
   ⟨['c', 'i', 'r', 'c', 'l', 'e', 'a', 'r', 'r', 'o', 'w', 'r', 'i', 'g', 'h', 't', ';'],
    ['\u21BB']⟩,
   ⟨['c', 'i', 'r', 'c', 'l', 'e', 'd', 'R', ';'], ['\u00AE']⟩,
   ⟨['c', 'i', 'r', 'c', 'l', 'e', 'd', 'S', ';'], ['\u24C8']⟩,
   ⟨['c', 'i', 'r', 'c', 'l', 'e', 'd', 'a', 's', 't', ';'], ['\u229B']⟩,
   ⟨['c', 'i', 'r', 'c', 'l', 'e', 'd', 'c', 'i', 'r', 'c', ';'], ['\u229A']⟩,
   ⟨['c', 'i', 'r', 'c', 'l', 'e', 'd', 'd', 'a', 's', 'h', ';'], ['\u229D']⟩,
   ⟨['c', 'i', 'r', 'e', ';'], ['\u2257']⟩,
   ⟨['c', 'i', 'r', 'f', 'n', 'i', 'n', 't', ';'], ['\u2A10']⟩,
   ⟨['c', 'i', 'r', 'm', 'i', 'd', ';'], ['\u2AEF']⟩,
   ⟨['c', 'i', 'r', 's', 'c', 'i', 'r', ';'], ['\u29C2']⟩,
   ⟨['c', 'l', 'u', 'b', 's', ';'], ['\u2663']⟩,
   ⟨['c', 'l', 'u', 'b', 's', 'u', 'i', 't', ';'], ['\u2663']⟩,
   ⟨['c', 'o', 'l', 'o', 'n', ';'], [':']⟩,
   ⟨['c', 'o', 'l', 'o', 'n', 'e', ';'], ['\u2254']⟩,
   ⟨['c', 'o', 'l', 'o', 'n', 'e', 'q', ';'], ['\u2254']⟩,
   ⟨['c', 'o', 'm', 'm', 'a', ';'], [',']⟩,
   ⟨['c', 'o', 'm', 'm', 'a', 't', ';'], ['@']⟩,
   ⟨['c', 'o', 'm', 'p', ';'], ['\u2201']⟩,
   ⟨['c', 'o', 'm', 'p', 'f', 'n', ';'], ['\u2218']⟩,
   ⟨['c', 'o', 'm', 'p', 'l', 'e', 'm', 'e', 'n', 't', ';'], ['\u2201']⟩,
   ⟨['c', 'o', 'm', 'p', 'l', 'e', 'x', 'e', 's', ';'], ['\u2102']⟩,
   ⟨['c', 'o', 'n', 'g', ';'], ['\u2245']⟩,
   ⟨['c', 'o', 'n', 'g', 'd', 'o', 't', ';'], ['\u2A6D']⟩,
   ⟨['c', 'o', 'n', 'i', 'n', 't', ';'], ['\u222E']⟩,
   ⟨['c', 'o', 'p', 'f', ';'], ['𝕔']⟩,
   ⟨['c', 'o', 'p', 'r', 'o', 'd', ';'], ['\u2210']⟩,
   ⟨['c', 'o', 'p', 'y'], ['\u00A9']⟩,
   ⟨['c', 'o', 'p', 'y', ';'], ['\u00A9']⟩,
   ⟨['c', 'o', 'p', 'y', 's', 'r', ';'], ['\u2117']⟩,
   ⟨['c', 'r', 'a', 'r', 'r', ';'], ['\u21B5']⟩,
   ⟨['c', 'r', 'o', 's', 's', ';'], ['\u2717']⟩,
   ⟨['c', 's', 'c', 'r', ';'], ['𝒸']⟩,
   ⟨['c', 's', 'u', 'b', ';'], ['\u2ACF']⟩,
   ⟨['c', 's', 'u', 'b', 'e', ';'], ['\u2AD1']⟩,
   ⟨['c', 's', 'u', 'p', ';'], ['\u2AD0']⟩,
   ⟨['c', 's', 'u', 'p', 'e', ';'], ['\u2AD2']⟩,
   ⟨['c', 't', 'd', 'o', 't', ';'], ['\u22EF']⟩,
   ⟨['c', 'u', 'd', 'a', 'r', 'r', 'l', ';'], ['\u2938']⟩,
   ⟨['c', 'u', 'd', 'a', 'r', 'r', 'r', ';'], ['\u2935']⟩,
   ⟨['c', 'u', 'e', 'p', 'r', ';'], ['\u22DE']⟩,
   ⟨['c', 'u', 'e', 's', 'c', ';'], ['\u22DF']⟩,
   ⟨['c', 'u', 'l', 'a', 'r', 'r', ';'], ['\u21B6']⟩,
   ⟨['c', 'u', 'l', 'a', 'r', 'r', 'p', ';'], ['\u293D']⟩,
   ⟨['c', 'u', 'p', ';'], ['\u222A']⟩,
   ⟨['c', 'u', 'p', 'b', 'r', 'c', 'a', 'p', ';'], ['\u2A48']⟩,
   ⟨['c', 'u', 'p', 'c', 'a', 'p', ';'], ['\u2A46']⟩,
   ⟨['c', 'u', 'p', 'c', 'u', 'p', ';'], ['\u2A4A']⟩,
   ⟨['c', 'u', 'p', 'd', 'o', 't', ';'], ['\u228D']⟩,
   ⟨['c', 'u', 'p', 'o', 'r', ';'], ['\u2A45']⟩,
   ⟨['c', 'u', 'p', 's', ';'], ['\u222A', '\uFE00']⟩,
   ⟨['c', 'u', 'r', 'a', 'r', 'r', ';'], ['\u21B7']⟩,
   ⟨['c', 'u', 'r', 'a', 'r', 'r', 'm', ';'], ['\u293C']⟩,
   ⟨['c', 'u', 'r', 'l', 'y', 'e', 'q', 'p', 'r', 'e', 'c', ';'], ['\u22DE']⟩,
   ⟨['c', 'u', 'r', 'l', 'y', 'e', 'q', 's', 'u', 'c', 'c', ';'], ['\u22DF']⟩,
   ⟨['c', 'u', 'r', 'l', 'y', 'v', 'e', 'e', ';'], ['\u22CE']⟩,
   ⟨['c', 'u', 'r', 'l', 'y', 'w', 'e', 'd', 'g', 'e', ';'], ['\u22CF']⟩,
   ⟨['c', 'u', 'r', 'r', 'e', 'n'], ['\u00A4']⟩,
   ⟨['c', 'u', 'r', 'r', 'e', 'n', ';'], ['\u00A4']⟩,
   ⟨['c', 'u', 'r', 'v', 'e', 'a', 'r', 'r', 'o', 'w', 'l', 'e', 'f', 't', ';'], ['\u21B6']⟩,
   ⟨['c', 'u', 'r', 'v', 'e', 'a', 'r', 'r', 'o', 'w', 'r', 'i', 'g', 'h', 't', ';'], ['\u21B7']⟩,
   ⟨['c', 'u', 'v', 'e', 'e', ';'], ['\u22CE']⟩,
   ⟨['c', 'u', 'w', 'e', 'd', ';'], ['\u22CF']⟩,
   ⟨['c', 'w', 'c', 'o', 'n', 'i', 'n', 't', ';'], ['\u2232']⟩,
   ⟨['c', 'w', 'i', 'n', 't', ';'], ['\u2231']⟩,
   ⟨['c', 'y', 'l', 'c', 't', 'y', ';'], ['\u232D']⟩]

/-- The names that begin with `a`, `b` or `c`. -/
def aToC : List Entry :=
  lowerA ++ lowerB ++ lowerC

end Hypertext.Entity.Table
