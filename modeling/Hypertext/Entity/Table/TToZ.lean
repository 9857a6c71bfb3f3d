import Hypertext.Entity.Entry

/-!
# Named character references that begin with `t` to `z`
-/

namespace Hypertext.Entity.Table

def lowerT : List Entry :=
  [⟨['t', 'a', 'r', 'g', 'e', 't', ';'], ['\u2316']⟩,
   ⟨['t', 'a', 'u', ';'], ['\u03C4']⟩,
   ⟨['t', 'b', 'r', 'k', ';'], ['\u23B4']⟩,
   ⟨['t', 'c', 'a', 'r', 'o', 'n', ';'], ['\u0165']⟩,
   ⟨['t', 'c', 'e', 'd', 'i', 'l', ';'], ['\u0163']⟩,
   ⟨['t', 'c', 'y', ';'], ['\u0442']⟩,
   ⟨['t', 'd', 'o', 't', ';'], ['\u20DB']⟩,
   ⟨['t', 'e', 'l', 'r', 'e', 'c', ';'], ['\u2315']⟩,
   ⟨['t', 'f', 'r', ';'], ['𝔱']⟩,
   ⟨['t', 'h', 'e', 'r', 'e', '4', ';'], ['\u2234']⟩,
   ⟨['t', 'h', 'e', 'r', 'e', 'f', 'o', 'r', 'e', ';'], ['\u2234']⟩,
   ⟨['t', 'h', 'e', 't', 'a', ';'], ['\u03B8']⟩,
   ⟨['t', 'h', 'e', 't', 'a', 's', 'y', 'm', ';'], ['\u03D1']⟩,
   ⟨['t', 'h', 'e', 't', 'a', 'v', ';'], ['\u03D1']⟩,
   ⟨['t', 'h', 'i', 'c', 'k', 'a', 'p', 'p', 'r', 'o', 'x', ';'], ['\u2248']⟩,
   ⟨['t', 'h', 'i', 'c', 'k', 's', 'i', 'm', ';'], ['\u223C']⟩,
   ⟨['t', 'h', 'i', 'n', 's', 'p', ';'], ['\u2009']⟩,
   ⟨['t', 'h', 'k', 'a', 'p', ';'], ['\u2248']⟩,
   ⟨['t', 'h', 'k', 's', 'i', 'm', ';'], ['\u223C']⟩,
   ⟨['t', 'h', 'o', 'r', 'n'], ['\u00FE']⟩,
   ⟨['t', 'h', 'o', 'r', 'n', ';'], ['\u00FE']⟩,
   ⟨['t', 'i', 'l', 'd', 'e', ';'], ['\u02DC']⟩,
   ⟨['t', 'i', 'm', 'e', 's'], ['\u00D7']⟩,
   ⟨['t', 'i', 'm', 'e', 's', ';'], ['\u00D7']⟩,
   ⟨['t', 'i', 'm', 'e', 's', 'b', ';'], ['\u22A0']⟩,
   ⟨['t', 'i', 'm', 'e', 's', 'b', 'a', 'r', ';'], ['\u2A31']⟩,
   ⟨['t', 'i', 'm', 'e', 's', 'd', ';'], ['\u2A30']⟩,
   ⟨['t', 'i', 'n', 't', ';'], ['\u222D']⟩,
   ⟨['t', 'o', 'e', 'a', ';'], ['\u2928']⟩,
   ⟨['t', 'o', 'p', ';'], ['\u22A4']⟩,
   ⟨['t', 'o', 'p', 'b', 'o', 't', ';'], ['\u2336']⟩,
   ⟨['t', 'o', 'p', 'c', 'i', 'r', ';'], ['\u2AF1']⟩,
   ⟨['t', 'o', 'p', 'f', ';'], ['𝕥']⟩,
   ⟨['t', 'o', 'p', 'f', 'o', 'r', 'k', ';'], ['\u2ADA']⟩,
   ⟨['t', 'o', 's', 'a', ';'], ['\u2929']⟩,
   ⟨['t', 'p', 'r', 'i', 'm', 'e', ';'], ['\u2034']⟩,
   ⟨['t', 'r', 'a', 'd', 'e', ';'], ['\u2122']⟩,
   ⟨['t', 'r', 'i', 'a', 'n', 'g', 'l', 'e', ';'], ['\u25B5']⟩,
   ⟨['t', 'r', 'i', 'a', 'n', 'g', 'l', 'e', 'd', 'o', 'w', 'n', ';'], ['\u25BF']⟩,
   ⟨['t', 'r', 'i', 'a', 'n', 'g', 'l', 'e', 'l', 'e', 'f', 't', ';'], ['\u25C3']⟩,
   ⟨['t', 'r', 'i', 'a', 'n', 'g', 'l', 'e', 'l', 'e', 'f', 't', 'e', 'q', ';'], ['\u22B4']⟩,
   ⟨['t', 'r', 'i', 'a', 'n', 'g', 'l', 'e', 'q', ';'], ['\u225C']⟩,
   ⟨['t', 'r', 'i', 'a', 'n', 'g', 'l', 'e', 'r', 'i', 'g', 'h', 't', ';'], ['\u25B9']⟩,
   ⟨['t', 'r', 'i', 'a', 'n', 'g', 'l', 'e', 'r', 'i', 'g', 'h', 't', 'e', 'q', ';'], ['\u22B5']⟩,
   ⟨['t', 'r', 'i', 'd', 'o', 't', ';'], ['\u25EC']⟩,
   ⟨['t', 'r', 'i', 'e', ';'], ['\u225C']⟩,
   ⟨['t', 'r', 'i', 'm', 'i', 'n', 'u', 's', ';'], ['\u2A3A']⟩,
   ⟨['t', 'r', 'i', 'p', 'l', 'u', 's', ';'], ['\u2A39']⟩,
   ⟨['t', 'r', 'i', 's', 'b', ';'], ['\u29CD']⟩,
   ⟨['t', 'r', 'i', 't', 'i', 'm', 'e', ';'], ['\u2A3B']⟩,
   ⟨['t', 'r', 'p', 'e', 'z', 'i', 'u', 'm', ';'], ['\u23E2']⟩,
   ⟨['t', 's', 'c', 'r', ';'], ['𝓉']⟩,
   ⟨['t', 's', 'c', 'y', ';'], ['\u0446']⟩,
   ⟨['t', 's', 'h', 'c', 'y', ';'], ['\u045B']⟩,
   ⟨['t', 's', 't', 'r', 'o', 'k', ';'], ['\u0167']⟩,
   ⟨['t', 'w', 'i', 'x', 't', ';'], ['\u226C']⟩,
   ⟨['t', 'w', 'o', 'h', 'e', 'a', 'd', 'l', 'e', 'f', 't', 'a', 'r', 'r', 'o', 'w', ';'],
    ['\u219E']⟩,
   ⟨['t', 'w', 'o', 'h', 'e', 'a', 'd', 'r', 'i', 'g', 'h', 't', 'a', 'r', 'r', 'o', 'w', ';'],
    ['\u21A0']⟩]

def lowerU : List Entry :=
  [⟨['u', 'A', 'r', 'r', ';'], ['\u21D1']⟩,
   ⟨['u', 'H', 'a', 'r', ';'], ['\u2963']⟩,
   ⟨['u', 'a', 'c', 'u', 't', 'e'], ['\u00FA']⟩,
   ⟨['u', 'a', 'c', 'u', 't', 'e', ';'], ['\u00FA']⟩,
   ⟨['u', 'a', 'r', 'r', ';'], ['\u2191']⟩,
   ⟨['u', 'b', 'r', 'c', 'y', ';'], ['\u045E']⟩,
   ⟨['u', 'b', 'r', 'e', 'v', 'e', ';'], ['\u016D']⟩,
   ⟨['u', 'c', 'i', 'r', 'c'], ['\u00FB']⟩,
   ⟨['u', 'c', 'i', 'r', 'c', ';'], ['\u00FB']⟩,
   ⟨['u', 'c', 'y', ';'], ['\u0443']⟩,
   ⟨['u', 'd', 'a', 'r', 'r', ';'], ['\u21C5']⟩,
   ⟨['u', 'd', 'b', 'l', 'a', 'c', ';'], ['\u0171']⟩,
   ⟨['u', 'd', 'h', 'a', 'r', ';'], ['\u296E']⟩,
   ⟨['u', 'f', 'i', 's', 'h', 't', ';'], ['\u297E']⟩,
   ⟨['u', 'f', 'r', ';'], ['𝔲']⟩,
   ⟨['u', 'g', 'r', 'a', 'v', 'e'], ['\u00F9']⟩,
   ⟨['u', 'g', 'r', 'a', 'v', 'e', ';'], ['\u00F9']⟩,
   ⟨['u', 'h', 'a', 'r', 'l', ';'], ['\u21BF']⟩,
   ⟨['u', 'h', 'a', 'r', 'r', ';'], ['\u21BE']⟩,
   ⟨['u', 'h', 'b', 'l', 'k', ';'], ['\u2580']⟩,
   ⟨['u', 'l', 'c', 'o', 'r', 'n', ';'], ['\u231C']⟩,
   ⟨['u', 'l', 'c', 'o', 'r', 'n', 'e', 'r', ';'], ['\u231C']⟩,
   ⟨['u', 'l', 'c', 'r', 'o', 'p', ';'], ['\u230F']⟩,
   ⟨['u', 'l', 't', 'r', 'i', ';'], ['\u25F8']⟩,
   ⟨['u', 'm', 'a', 'c', 'r', ';'], ['\u016B']⟩,
   ⟨['u', 'm', 'l'], ['\u00A8']⟩,
   ⟨['u', 'm', 'l', ';'], ['\u00A8']⟩,
   ⟨['u', 'o', 'g', 'o', 'n', ';'], ['\u0173']⟩,
   ⟨['u', 'o', 'p', 'f', ';'], ['𝕦']⟩,
   ⟨['u', 'p', 'a', 'r', 'r', 'o', 'w', ';'], ['\u2191']⟩,
   ⟨['u', 'p', 'd', 'o', 'w', 'n', 'a', 'r', 'r', 'o', 'w', ';'], ['\u2195']⟩,
   ⟨['u', 'p', 'h', 'a', 'r', 'p', 'o', 'o', 'n', 'l', 'e', 'f', 't', ';'], ['\u21BF']⟩,
   ⟨['u', 'p', 'h', 'a', 'r', 'p', 'o', 'o', 'n', 'r', 'i', 'g', 'h', 't', ';'], ['\u21BE']⟩,
   ⟨['u', 'p', 'l', 'u', 's', ';'], ['\u228E']⟩,
   ⟨['u', 'p', 's', 'i', ';'], ['\u03C5']⟩,
   ⟨['u', 'p', 's', 'i', 'h', ';'], ['\u03D2']⟩,
   ⟨['u', 'p', 's', 'i', 'l', 'o', 'n', ';'], ['\u03C5']⟩,
   ⟨['u', 'p', 'u', 'p', 'a', 'r', 'r', 'o', 'w', 's', ';'], ['\u21C8']⟩,
   ⟨['u', 'r', 'c', 'o', 'r', 'n', ';'], ['\u231D']⟩,
   ⟨['u', 'r', 'c', 'o', 'r', 'n', 'e', 'r', ';'], ['\u231D']⟩,
   ⟨['u', 'r', 'c', 'r', 'o', 'p', ';'], ['\u230E']⟩,
   ⟨['u', 'r', 'i', 'n', 'g', ';'], ['\u016F']⟩,
   ⟨['u', 'r', 't', 'r', 'i', ';'], ['\u25F9']⟩,
   ⟨['u', 's', 'c', 'r', ';'], ['𝓊']⟩,
   ⟨['u', 't', 'd', 'o', 't', ';'], ['\u22F0']⟩,
   ⟨['u', 't', 'i', 'l', 'd', 'e', ';'], ['\u0169']⟩,
   ⟨['u', 't', 'r', 'i', ';'], ['\u25B5']⟩,
   ⟨['u', 't', 'r', 'i', 'f', ';'], ['\u25B4']⟩,
   ⟨['u', 'u', 'a', 'r', 'r', ';'], ['\u21C8']⟩,
   ⟨['u', 'u', 'm', 'l'], ['\u00FC']⟩,
   ⟨['u', 'u', 'm', 'l', ';'], ['\u00FC']⟩,
   ⟨['u', 'w', 'a', 'n', 'g', 'l', 'e', ';'], ['\u29A7']⟩]

def lowerV : List Entry :=
  [⟨['v', 'A', 'r', 'r', ';'], ['\u21D5']⟩,
   ⟨['v', 'B', 'a', 'r', ';'], ['\u2AE8']⟩,
   ⟨['v', 'B', 'a', 'r', 'v', ';'], ['\u2AE9']⟩,
   ⟨['v', 'D', 'a', 's', 'h', ';'], ['\u22A8']⟩,
   ⟨['v', 'a', 'n', 'g', 'r', 't', ';'], ['\u299C']⟩,
   ⟨['v', 'a', 'r', 'e', 'p', 's', 'i', 'l', 'o', 'n', ';'], ['\u03F5']⟩,
   ⟨['v', 'a', 'r', 'k', 'a', 'p', 'p', 'a', ';'], ['\u03F0']⟩,
   ⟨['v', 'a', 'r', 'n', 'o', 't', 'h', 'i', 'n', 'g', ';'], ['\u2205']⟩,
   ⟨['v', 'a', 'r', 'p', 'h', 'i', ';'], ['\u03D5']⟩,
   ⟨['v', 'a', 'r', 'p', 'i', ';'], ['\u03D6']⟩,
   ⟨['v', 'a', 'r', 'p', 'r', 'o', 'p', 't', 'o', ';'], ['\u221D']⟩,
   ⟨['v', 'a', 'r', 'r', ';'], ['\u2195']⟩,
   ⟨['v', 'a', 'r', 'r', 'h', 'o', ';'], ['\u03F1']⟩,
   ⟨['v', 'a', 'r', 's', 'i', 'g', 'm', 'a', ';'], ['\u03C2']⟩,
   ⟨['v', 'a', 'r', 's', 'u', 'b', 's', 'e', 't', 'n', 'e', 'q', ';'], ['\u228A', '\uFE00']⟩,
   ⟨['v', 'a', 'r', 's', 'u', 'b', 's', 'e', 't', 'n', 'e', 'q', 'q', ';'], ['\u2ACB', '\uFE00']⟩,
   ⟨['v', 'a', 'r', 's', 'u', 'p', 's', 'e', 't', 'n', 'e', 'q', ';'], ['\u228B', '\uFE00']⟩,
   ⟨['v', 'a', 'r', 's', 'u', 'p', 's', 'e', 't', 'n', 'e', 'q', 'q', ';'], ['\u2ACC', '\uFE00']⟩,
   ⟨['v', 'a', 'r', 't', 'h', 'e', 't', 'a', ';'], ['\u03D1']⟩,
   ⟨['v', 'a', 'r', 't', 'r', 'i', 'a', 'n', 'g', 'l', 'e', 'l', 'e', 'f', 't', ';'], ['\u22B2']⟩,
   ⟨['v', 'a', 'r', 't', 'r', 'i', 'a', 'n', 'g', 'l', 'e', 'r', 'i', 'g', 'h', 't', ';'],
    ['\u22B3']⟩,
   ⟨['v', 'c', 'y', ';'], ['\u0432']⟩,
   ⟨['v', 'd', 'a', 's', 'h', ';'], ['\u22A2']⟩,
   ⟨['v', 'e', 'e', ';'], ['\u2228']⟩,
   ⟨['v', 'e', 'e', 'b', 'a', 'r', ';'], ['\u22BB']⟩,
   ⟨['v', 'e', 'e', 'e', 'q', ';'], ['\u225A']⟩,
   ⟨['v', 'e', 'l', 'l', 'i', 'p', ';'], ['\u22EE']⟩,
   ⟨['v', 'e', 'r', 'b', 'a', 'r', ';'], ['|']⟩,
   ⟨['v', 'e', 'r', 't', ';'], ['|']⟩,
   ⟨['v', 'f', 'r', ';'], ['𝔳']⟩,
   ⟨['v', 'l', 't', 'r', 'i', ';'], ['\u22B2']⟩,
   ⟨['v', 'n', 's', 'u', 'b', ';'], ['\u2282', '\u20D2']⟩,
   ⟨['v', 'n', 's', 'u', 'p', ';'], ['\u2283', '\u20D2']⟩,
   ⟨['v', 'o', 'p', 'f', ';'], ['𝕧']⟩,
   ⟨['v', 'p', 'r', 'o', 'p', ';'], ['\u221D']⟩,
   ⟨['v', 'r', 't', 'r', 'i', ';'], ['\u22B3']⟩,
   ⟨['v', 's', 'c', 'r', ';'], ['𝓋']⟩,
   ⟨['v', 's', 'u', 'b', 'n', 'E', ';'], ['\u2ACB', '\uFE00']⟩,
   ⟨['v', 's', 'u', 'b', 'n', 'e', ';'], ['\u228A', '\uFE00']⟩,
   ⟨['v', 's', 'u', 'p', 'n', 'E', ';'], ['\u2ACC', '\uFE00']⟩,
   ⟨['v', 's', 'u', 'p', 'n', 'e', ';'], ['\u228B', '\uFE00']⟩,
   ⟨['v', 'z', 'i', 'g', 'z', 'a', 'g', ';'], ['\u299A']⟩]

def lowerW : List Entry :=
  [⟨['w', 'c', 'i', 'r', 'c', ';'], ['\u0175']⟩,
   ⟨['w', 'e', 'd', 'b', 'a', 'r', ';'], ['\u2A5F']⟩,
   ⟨['w', 'e', 'd', 'g', 'e', ';'], ['\u2227']⟩,
   ⟨['w', 'e', 'd', 'g', 'e', 'q', ';'], ['\u2259']⟩,
   ⟨['w', 'e', 'i', 'e', 'r', 'p', ';'], ['\u2118']⟩,
   ⟨['w', 'f', 'r', ';'], ['𝔴']⟩,
   ⟨['w', 'o', 'p', 'f', ';'], ['𝕨']⟩,
   ⟨['w', 'p', ';'], ['\u2118']⟩,
   ⟨['w', 'r', ';'], ['\u2240']⟩,
   ⟨['w', 'r', 'e', 'a', 't', 'h', ';'], ['\u2240']⟩,
   ⟨['w', 's', 'c', 'r', ';'], ['𝓌']⟩]

def lowerX : List Entry :=
  [⟨['x', 'c', 'a', 'p', ';'], ['\u22C2']⟩,
   ⟨['x', 'c', 'i', 'r', 'c', ';'], ['\u25EF']⟩,
   ⟨['x', 'c', 'u', 'p', ';'], ['\u22C3']⟩,
   ⟨['x', 'd', 't', 'r', 'i', ';'], ['\u25BD']⟩,
   ⟨['x', 'f', 'r', ';'], ['𝔵']⟩,
   ⟨['x', 'h', 'A', 'r', 'r', ';'], ['\u27FA']⟩,
   ⟨['x', 'h', 'a', 'r', 'r', ';'], ['\u27F7']⟩,
   ⟨['x', 'i', ';'], ['\u03BE']⟩,
   ⟨['x', 'l', 'A', 'r', 'r', ';'], ['\u27F8']⟩,
   ⟨['x', 'l', 'a', 'r', 'r', ';'], ['\u27F5']⟩,
   ⟨['x', 'm', 'a', 'p', ';'], ['\u27FC']⟩,
   ⟨['x', 'n', 'i', 's', ';'], ['\u22FB']⟩,
   ⟨['x', 'o', 'd', 'o', 't', ';'], ['\u2A00']⟩,
   ⟨['x', 'o', 'p', 'f', ';'], ['𝕩']⟩,
   ⟨['x', 'o', 'p', 'l', 'u', 's', ';'], ['\u2A01']⟩,
   ⟨['x', 'o', 't', 'i', 'm', 'e', ';'], ['\u2A02']⟩,
   ⟨['x', 'r', 'A', 'r', 'r', ';'], ['\u27F9']⟩,
   ⟨['x', 'r', 'a', 'r', 'r', ';'], ['\u27F6']⟩,
   ⟨['x', 's', 'c', 'r', ';'], ['𝓍']⟩,
   ⟨['x', 's', 'q', 'c', 'u', 'p', ';'], ['\u2A06']⟩,
   ⟨['x', 'u', 'p', 'l', 'u', 's', ';'], ['\u2A04']⟩,
   ⟨['x', 'u', 't', 'r', 'i', ';'], ['\u25B3']⟩,
   ⟨['x', 'v', 'e', 'e', ';'], ['\u22C1']⟩,
   ⟨['x', 'w', 'e', 'd', 'g', 'e', ';'], ['\u22C0']⟩]

def lowerY : List Entry :=
  [⟨['y', 'a', 'c', 'u', 't', 'e'], ['\u00FD']⟩,
   ⟨['y', 'a', 'c', 'u', 't', 'e', ';'], ['\u00FD']⟩,
   ⟨['y', 'a', 'c', 'y', ';'], ['\u044F']⟩,
   ⟨['y', 'c', 'i', 'r', 'c', ';'], ['\u0177']⟩,
   ⟨['y', 'c', 'y', ';'], ['\u044B']⟩,
   ⟨['y', 'e', 'n'], ['\u00A5']⟩,
   ⟨['y', 'e', 'n', ';'], ['\u00A5']⟩,
   ⟨['y', 'f', 'r', ';'], ['𝔶']⟩,
   ⟨['y', 'i', 'c', 'y', ';'], ['\u0457']⟩,
   ⟨['y', 'o', 'p', 'f', ';'], ['𝕪']⟩,
   ⟨['y', 's', 'c', 'r', ';'], ['𝓎']⟩,
   ⟨['y', 'u', 'c', 'y', ';'], ['\u044E']⟩,
   ⟨['y', 'u', 'm', 'l'], ['\u00FF']⟩,
   ⟨['y', 'u', 'm', 'l', ';'], ['\u00FF']⟩]

def lowerZ : List Entry :=
  [⟨['z', 'a', 'c', 'u', 't', 'e', ';'], ['\u017A']⟩,
   ⟨['z', 'c', 'a', 'r', 'o', 'n', ';'], ['\u017E']⟩,
   ⟨['z', 'c', 'y', ';'], ['\u0437']⟩,
   ⟨['z', 'd', 'o', 't', ';'], ['\u017C']⟩,
   ⟨['z', 'e', 'e', 't', 'r', 'f', ';'], ['\u2128']⟩,
   ⟨['z', 'e', 't', 'a', ';'], ['\u03B6']⟩,
   ⟨['z', 'f', 'r', ';'], ['𝔷']⟩,
   ⟨['z', 'h', 'c', 'y', ';'], ['\u0436']⟩,
   ⟨['z', 'i', 'g', 'r', 'a', 'r', 'r', ';'], ['\u21DD']⟩,
   ⟨['z', 'o', 'p', 'f', ';'], ['𝕫']⟩,
   ⟨['z', 's', 'c', 'r', ';'], ['𝓏']⟩,
   ⟨['z', 'w', 'j', ';'], ['\u200D']⟩,
   ⟨['z', 'w', 'n', 'j', ';'], ['\u200C']⟩]

/-- The names that begin with `t` to `z`. -/
def tToZ : List Entry :=
  lowerT ++ lowerU ++ lowerV ++ lowerW ++ lowerX ++ lowerY ++ lowerZ

end Hypertext.Entity.Table
