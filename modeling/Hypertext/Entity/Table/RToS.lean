import Hypertext.Entity.Entry

/-!
# Named character references that begin with `r` or `s`
-/

namespace Hypertext.Entity.Table

def lowerR : List Entry :=
  [⟨['r', 'A', 'a', 'r', 'r', ';'], ['\u21DB']⟩,
   ⟨['r', 'A', 'r', 'r', ';'], ['\u21D2']⟩,
   ⟨['r', 'A', 't', 'a', 'i', 'l', ';'], ['\u291C']⟩,
   ⟨['r', 'B', 'a', 'r', 'r', ';'], ['\u290F']⟩,
   ⟨['r', 'H', 'a', 'r', ';'], ['\u2964']⟩,
   ⟨['r', 'a', 'c', 'e', ';'], ['\u223D', '\u0331']⟩,
   ⟨['r', 'a', 'c', 'u', 't', 'e', ';'], ['\u0155']⟩,
   ⟨['r', 'a', 'd', 'i', 'c', ';'], ['\u221A']⟩,
   ⟨['r', 'a', 'e', 'm', 'p', 't', 'y', 'v', ';'], ['\u29B3']⟩,
   ⟨['r', 'a', 'n', 'g', ';'], ['\u27E9']⟩,
   ⟨['r', 'a', 'n', 'g', 'd', ';'], ['\u2992']⟩,
   ⟨['r', 'a', 'n', 'g', 'e', ';'], ['\u29A5']⟩,
   ⟨['r', 'a', 'n', 'g', 'l', 'e', ';'], ['\u27E9']⟩,
   ⟨['r', 'a', 'q', 'u', 'o'], ['\u00BB']⟩,
   ⟨['r', 'a', 'q', 'u', 'o', ';'], ['\u00BB']⟩,
   ⟨['r', 'a', 'r', 'r', ';'], ['\u2192']⟩,
   ⟨['r', 'a', 'r', 'r', 'a', 'p', ';'], ['\u2975']⟩,
   ⟨['r', 'a', 'r', 'r', 'b', ';'], ['\u21E5']⟩,
   ⟨['r', 'a', 'r', 'r', 'b', 'f', 's', ';'], ['\u2920']⟩,
   ⟨['r', 'a', 'r', 'r', 'c', ';'], ['\u2933']⟩,
   ⟨['r', 'a', 'r', 'r', 'f', 's', ';'], ['\u291E']⟩,
   ⟨['r', 'a', 'r', 'r', 'h', 'k', ';'], ['\u21AA']⟩,
   ⟨['r', 'a', 'r', 'r', 'l', 'p', ';'], ['\u21AC']⟩,
   ⟨['r', 'a', 'r', 'r', 'p', 'l', ';'], ['\u2945']⟩,
   ⟨['r', 'a', 'r', 'r', 's', 'i', 'm', ';'], ['\u2974']⟩,
   ⟨['r', 'a', 'r', 'r', 't', 'l', ';'], ['\u21A3']⟩,
   ⟨['r', 'a', 'r', 'r', 'w', ';'], ['\u219D']⟩,
   ⟨['r', 'a', 't', 'a', 'i', 'l', ';'], ['\u291A']⟩,
   ⟨['r', 'a', 't', 'i', 'o', ';'], ['\u2236']⟩,
   ⟨['r', 'a', 't', 'i', 'o', 'n', 'a', 'l', 's', ';'], ['\u211A']⟩,
   ⟨['r', 'b', 'a', 'r', 'r', ';'], ['\u290D']⟩,
   ⟨['r', 'b', 'b', 'r', 'k', ';'], ['\u2773']⟩,
   ⟨['r', 'b', 'r', 'a', 'c', 'e', ';'], ['\x7d']⟩,
   ⟨['r', 'b', 'r', 'a', 'c', 'k', ';'], [']']⟩,
   ⟨['r', 'b', 'r', 'k', 'e', ';'], ['\u298C']⟩,
   ⟨['r', 'b', 'r', 'k', 's', 'l', 'd', ';'], ['\u298E']⟩,
   ⟨['r', 'b', 'r', 'k', 's', 'l', 'u', ';'], ['\u2990']⟩,
   ⟨['r', 'c', 'a', 'r', 'o', 'n', ';'], ['\u0159']⟩,
   ⟨['r', 'c', 'e', 'd', 'i', 'l', ';'], ['\u0157']⟩,
   ⟨['r', 'c', 'e', 'i', 'l', ';'], ['\u2309']⟩,
   ⟨['r', 'c', 'u', 'b', ';'], ['\x7d']⟩,
   ⟨['r', 'c', 'y', ';'], ['\u0440']⟩,
   ⟨['r', 'd', 'c', 'a', ';'], ['\u2937']⟩,
   ⟨['r', 'd', 'l', 'd', 'h', 'a', 'r', ';'], ['\u2969']⟩,
   ⟨['r', 'd', 'q', 'u', 'o', ';'], ['\u201D']⟩,
   ⟨['r', 'd', 'q', 'u', 'o', 'r', ';'], ['\u201D']⟩,
   ⟨['r', 'd', 's', 'h', ';'], ['\u21B3']⟩,
   ⟨['r', 'e', 'a', 'l', ';'], ['\u211C']⟩,
   ⟨['r', 'e', 'a', 'l', 'i', 'n', 'e', ';'], ['\u211B']⟩,
   ⟨['r', 'e', 'a', 'l', 'p', 'a', 'r', 't', ';'], ['\u211C']⟩,
   ⟨['r', 'e', 'a', 'l', 's', ';'], ['\u211D']⟩,
   ⟨['r', 'e', 'c', 't', ';'], ['\u25AD']⟩,
   ⟨['r', 'e', 'g'], ['\u00AE']⟩,
   ⟨['r', 'e', 'g', ';'], ['\u00AE']⟩,
   ⟨['r', 'f', 'i', 's', 'h', 't', ';'], ['\u297D']⟩,
   ⟨['r', 'f', 'l', 'o', 'o', 'r', ';'], ['\u230B']⟩,
   ⟨['r', 'f', 'r', ';'], ['𝔯']⟩,
   ⟨['r', 'h', 'a', 'r', 'd', ';'], ['\u21C1']⟩,
   ⟨['r', 'h', 'a', 'r', 'u', ';'], ['\u21C0']⟩,
   ⟨['r', 'h', 'a', 'r', 'u', 'l', ';'], ['\u296C']⟩,
   ⟨['r', 'h', 'o', ';'], ['\u03C1']⟩,
   ⟨['r', 'h', 'o', 'v', ';'], ['\u03F1']⟩,
   ⟨['r', 'i', 'g', 'h', 't', 'a', 'r', 'r', 'o', 'w', ';'], ['\u2192']⟩,
   ⟨['r', 'i', 'g', 'h', 't', 'a', 'r', 'r', 'o', 'w', 't', 'a', 'i', 'l', ';'], ['\u21A3']⟩,
   ⟨['r', 'i', 'g', 'h', 't', 'h', 'a', 'r', 'p', 'o', 'o', 'n', 'd', 'o', 'w', 'n', ';'],
    ['\u21C1']⟩,
   ⟨['r', 'i', 'g', 'h', 't', 'h', 'a', 'r', 'p', 'o', 'o', 'n', 'u', 'p', ';'], ['\u21C0']⟩,
   ⟨['r', 'i', 'g', 'h', 't', 'l', 'e', 'f', 't', 'a', 'r', 'r', 'o', 'w', 's', ';'], ['\u21C4']⟩,
   ⟨['r', 'i', 'g', 'h', 't', 'l', 'e', 'f', 't', 'h', 'a', 'r', 'p', 'o', 'o', 'n', 's', ';'],
    ['\u21CC']⟩,
   ⟨['r', 'i', 'g', 'h', 't', 'r', 'i', 'g', 'h', 't', 'a', 'r', 'r', 'o', 'w', 's', ';'],
    ['\u21C9']⟩,
   ⟨['r', 'i', 'g', 'h', 't', 's', 'q', 'u', 'i', 'g', 'a', 'r', 'r', 'o', 'w', ';'], ['\u219D']⟩,
   ⟨['r', 'i', 'g', 'h', 't', 't', 'h', 'r', 'e', 'e', 't', 'i', 'm', 'e', 's', ';'], ['\u22CC']⟩,
   ⟨['r', 'i', 'n', 'g', ';'], ['\u02DA']⟩,
   ⟨['r', 'i', 's', 'i', 'n', 'g', 'd', 'o', 't', 's', 'e', 'q', ';'], ['\u2253']⟩,
   ⟨['r', 'l', 'a', 'r', 'r', ';'], ['\u21C4']⟩,
   ⟨['r', 'l', 'h', 'a', 'r', ';'], ['\u21CC']⟩,
   ⟨['r', 'l', 'm', ';'], ['\u200F']⟩,
   ⟨['r', 'm', 'o', 'u', 's', 't', ';'], ['\u23B1']⟩,
   ⟨['r', 'm', 'o', 'u', 's', 't', 'a', 'c', 'h', 'e', ';'], ['\u23B1']⟩,
   ⟨['r', 'n', 'm', 'i', 'd', ';'], ['\u2AEE']⟩,
   ⟨['r', 'o', 'a', 'n', 'g', ';'], ['\u27ED']⟩,
   ⟨['r', 'o', 'a', 'r', 'r', ';'], ['\u21FE']⟩,
   ⟨['r', 'o', 'b', 'r', 'k', ';'], ['\u27E7']⟩,
   ⟨['r', 'o', 'p', 'a', 'r', ';'], ['\u2986']⟩,
   ⟨['r', 'o', 'p', 'f', ';'], ['𝕣']⟩,
   ⟨['r', 'o', 'p', 'l', 'u', 's', ';'], ['\u2A2E']⟩,
   ⟨['r', 'o', 't', 'i', 'm', 'e', 's', ';'], ['\u2A35']⟩,
   ⟨['r', 'p', 'a', 'r', ';'], [')']⟩,
   ⟨['r', 'p', 'a', 'r', 'g', 't', ';'], ['\u2994']⟩,
   ⟨['r', 'p', 'p', 'o', 'l', 'i', 'n', 't', ';'], ['\u2A12']⟩,
   ⟨['r', 'r', 'a', 'r', 'r', ';'], ['\u21C9']⟩,
   ⟨['r', 's', 'a', 'q', 'u', 'o', ';'], ['\u203A']⟩,
   ⟨['r', 's', 'c', 'r', ';'], ['𝓇']⟩,
   ⟨['r', 's', 'h', ';'], ['\u21B1']⟩,
   ⟨['r', 's', 'q', 'b', ';'], [']']⟩,
   ⟨['r', 's', 'q', 'u', 'o', ';'], ['\u2019']⟩,
   ⟨['r', 's', 'q', 'u', 'o', 'r', ';'], ['\u2019']⟩,
   ⟨['r', 't', 'h', 'r', 'e', 'e', ';'], ['\u22CC']⟩,
   ⟨['r', 't', 'i', 'm', 'e', 's', ';'], ['\u22CA']⟩,
   ⟨['r', 't', 'r', 'i', ';'], ['\u25B9']⟩,
   ⟨['r', 't', 'r', 'i', 'e', ';'], ['\u22B5']⟩,
   ⟨['r', 't', 'r', 'i', 'f', ';'], ['\u25B8']⟩,
   ⟨['r', 't', 'r', 'i', 'l', 't', 'r', 'i', ';'], ['\u29CE']⟩,
   ⟨['r', 'u', 'l', 'u', 'h', 'a', 'r', ';'], ['\u2968']⟩,
   ⟨['r', 'x', ';'], ['\u211E']⟩]

def lowerS : List Entry :=
  [⟨['s', 'a', 'c', 'u', 't', 'e', ';'], ['\u015B']⟩,
   ⟨['s', 'b', 'q', 'u', 'o', ';'], ['\u201A']⟩,
   ⟨['s', 'c', ';'], ['\u227B']⟩,
   ⟨['s', 'c', 'E', ';'], ['\u2AB4']⟩,
   ⟨['s', 'c', 'a', 'p', ';'], ['\u2AB8']⟩,
   ⟨['s', 'c', 'a', 'r', 'o', 'n', ';'], ['\u0161']⟩,
   ⟨['s', 'c', 'c', 'u', 'e', ';'], ['\u227D']⟩,
   ⟨['s', 'c', 'e', ';'], ['\u2AB0']⟩,
   ⟨['s', 'c', 'e', 'd', 'i', 'l', ';'], ['\u015F']⟩,
   ⟨['s', 'c', 'i', 'r', 'c', ';'], ['\u015D']⟩,
   ⟨['s', 'c', 'n', 'E', ';'], ['\u2AB6']⟩,
   ⟨['s', 'c', 'n', 'a', 'p', ';'], ['\u2ABA']⟩,
   ⟨['s', 'c', 'n', 's', 'i', 'm', ';'], ['\u22E9']⟩,
   ⟨['s', 'c', 'p', 'o', 'l', 'i', 'n', 't', ';'], ['\u2A13']⟩,
   ⟨['s', 'c', 's', 'i', 'm', ';'], ['\u227F']⟩,
   ⟨['s', 'c', 'y', ';'], ['\u0441']⟩,
   ⟨['s', 'd', 'o', 't', ';'], ['\u22C5']⟩,
   ⟨['s', 'd', 'o', 't', 'b', ';'], ['\u22A1']⟩,
   ⟨['s', 'd', 'o', 't', 'e', ';'], ['\u2A66']⟩,
   ⟨['s', 'e', 'A', 'r', 'r', ';'], ['\u21D8']⟩,
   ⟨['s', 'e', 'a', 'r', 'h', 'k', ';'], ['\u2925']⟩,
   ⟨['s', 'e', 'a', 'r', 'r', ';'], ['\u2198']⟩,
   ⟨['s', 'e', 'a', 'r', 'r', 'o', 'w', ';'], ['\u2198']⟩,
   ⟨['s', 'e', 'c', 't'], ['\u00A7']⟩,
   ⟨['s', 'e', 'c', 't', ';'], ['\u00A7']⟩,
   ⟨['s', 'e', 'm', 'i', ';'], [';']⟩,
   ⟨['s', 'e', 's', 'w', 'a', 'r', ';'], ['\u2929']⟩,
   ⟨['s', 'e', 't', 'm', 'i', 'n', 'u', 's', ';'], ['\u2216']⟩,
   ⟨['s', 'e', 't', 'm', 'n', ';'], ['\u2216']⟩,
   ⟨['s', 'e', 'x', 't', ';'], ['\u2736']⟩,
   ⟨['s', 'f', 'r', ';'], ['𝔰']⟩,
   ⟨['s', 'f', 'r', 'o', 'w', 'n', ';'], ['\u2322']⟩,
   ⟨['s', 'h', 'a', 'r', 'p', ';'], ['\u266F']⟩,
   ⟨['s', 'h', 'c', 'h', 'c', 'y', ';'], ['\u0449']⟩,
   ⟨['s', 'h', 'c', 'y', ';'], ['\u0448']⟩,
   ⟨['s', 'h', 'o', 'r', 't', 'm', 'i', 'd', ';'], ['\u2223']⟩,
   ⟨['s', 'h', 'o', 'r', 't', 'p', 'a', 'r', 'a', 'l', 'l', 'e', 'l', ';'], ['\u2225']⟩,
   ⟨['s', 'h', 'y'], ['\u00AD']⟩,
   ⟨['s', 'h', 'y', ';'], ['\u00AD']⟩,
   ⟨['s', 'i', 'g', 'm', 'a', ';'], ['\u03C3']⟩,
   ⟨['s', 'i', 'g', 'm', 'a', 'f', ';'], ['\u03C2']⟩,
   ⟨['s', 'i', 'g', 'm', 'a', 'v', ';'], ['\u03C2']⟩,
   ⟨['s', 'i', 'm', ';'], ['\u223C']⟩,
   ⟨['s', 'i', 'm', 'd', 'o', 't', ';'], ['\u2A6A']⟩,
   ⟨['s', 'i', 'm', 'e', ';'], ['\u2243']⟩,
   ⟨['s', 'i', 'm', 'e', 'q', ';'], ['\u2243']⟩,
   ⟨['s', 'i', 'm', 'g', ';'], ['\u2A9E']⟩,
   ⟨['s', 'i', 'm', 'g', 'E', ';'], ['\u2AA0']⟩,
   ⟨['s', 'i', 'm', 'l', ';'], ['\u2A9D']⟩,
   ⟨['s', 'i', 'm', 'l', 'E', ';'], ['\u2A9F']⟩,
   ⟨['s', 'i', 'm', 'n', 'e', ';'], ['\u2246']⟩,
   ⟨['s', 'i', 'm', 'p', 'l', 'u', 's', ';'], ['\u2A24']⟩,
   ⟨['s', 'i', 'm', 'r', 'a', 'r', 'r', ';'], ['\u2972']⟩,
   ⟨['s', 'l', 'a', 'r', 'r', ';'], ['\u2190']⟩,
   ⟨['s', 'm', 'a', 'l', 'l', 's', 'e', 't', 'm', 'i', 'n', 'u', 's', ';'], ['\u2216']⟩,
   ⟨['s', 'm', 'a', 's', 'h', 'p', ';'], ['\u2A33']⟩,
   ⟨['s', 'm', 'e', 'p', 'a', 'r', 's', 'l', ';'], ['\u29E4']⟩,
   ⟨['s', 'm', 'i', 'd', ';'], ['\u2223']⟩,
   ⟨['s', 'm', 'i', 'l', 'e', ';'], ['\u2323']⟩,
   ⟨['s', 'm', 't', ';'], ['\u2AAA']⟩,
   ⟨['s', 'm', 't', 'e', ';'], ['\u2AAC']⟩,
   ⟨['s', 'm', 't', 'e', 's', ';'], ['\u2AAC', '\uFE00']⟩,
   ⟨['s', 'o', 'f', 't', 'c', 'y', ';'], ['\u044C']⟩,
   ⟨['s', 'o', 'l', ';'], ['/']⟩,
   ⟨['s', 'o', 'l', 'b', ';'], ['\u29C4']⟩,
   ⟨['s', 'o', 'l', 'b', 'a', 'r', ';'], ['\u233F']⟩,
   ⟨['s', 'o', 'p', 'f', ';'], ['𝕤']⟩,
   ⟨['s', 'p', 'a', 'd', 'e', 's', ';'], ['\u2660']⟩,
   ⟨['s', 'p', 'a', 'd', 'e', 's', 'u', 'i', 't', ';'], ['\u2660']⟩,
   ⟨['s', 'p', 'a', 'r', ';'], ['\u2225']⟩,
   ⟨['s', 'q', 'c', 'a', 'p', ';'], ['\u2293']⟩,
   ⟨['s', 'q', 'c', 'a', 'p', 's', ';'], ['\u2293', '\uFE00']⟩,
   ⟨['s', 'q', 'c', 'u', 'p', ';'], ['\u2294']⟩,
   ⟨['s', 'q', 'c', 'u', 'p', 's', ';'], ['\u2294', '\uFE00']⟩,
   ⟨['s', 'q', 's', 'u', 'b', ';'], ['\u228F']⟩,
   ⟨['s', 'q', 's', 'u', 'b', 'e', ';'], ['\u2291']⟩,
   ⟨['s', 'q', 's', 'u', 'b', 's', 'e', 't', ';'], ['\u228F']⟩,
   ⟨['s', 'q', 's', 'u', 'b', 's', 'e', 't', 'e', 'q', ';'], ['\u2291']⟩,
   ⟨['s', 'q', 's', 'u', 'p', ';'], ['\u2290']⟩,
   ⟨['s', 'q', 's', 'u', 'p', 'e', ';'], ['\u2292']⟩,
   ⟨['s', 'q', 's', 'u', 'p', 's', 'e', 't', ';'], ['\u2290']⟩,
   ⟨['s', 'q', 's', 'u', 'p', 's', 'e', 't', 'e', 'q', ';'], ['\u2292']⟩,
   ⟨['s', 'q', 'u', ';'], ['\u25A1']⟩,
   ⟨['s', 'q', 'u', 'a', 'r', 'e', ';'], ['\u25A1']⟩,
   ⟨['s', 'q', 'u', 'a', 'r', 'f', ';'], ['\u25AA']⟩,
   ⟨['s', 'q', 'u', 'f', ';'], ['\u25AA']⟩,
   ⟨['s', 'r', 'a', 'r', 'r', ';'], ['\u2192']⟩,
   ⟨['s', 's', 'c', 'r', ';'], ['𝓈']⟩,
   ⟨['s', 's', 'e', 't', 'm', 'n', ';'], ['\u2216']⟩,
   ⟨['s', 's', 'm', 'i', 'l', 'e', ';'], ['\u2323']⟩,
   ⟨['s', 's', 't', 'a', 'r', 'f', ';'], ['\u22C6']⟩,
   ⟨['s', 't', 'a', 'r', ';'], ['\u2606']⟩,
   ⟨['s', 't', 'a', 'r', 'f', ';'], ['\u2605']⟩,
   ⟨['s', 't', 'r', 'a', 'i', 'g', 'h', 't', 'e', 'p', 's', 'i', 'l', 'o', 'n', ';'], ['\u03F5']⟩,
   ⟨['s', 't', 'r', 'a', 'i', 'g', 'h', 't', 'p', 'h', 'i', ';'], ['\u03D5']⟩,
   ⟨['s', 't', 'r', 'n', 's', ';'], ['\u00AF']⟩,
   ⟨['s', 'u', 'b', ';'], ['\u2282']⟩,
   ⟨['s', 'u', 'b', 'E', ';'], ['\u2AC5']⟩,
   ⟨['s', 'u', 'b', 'd', 'o', 't', ';'], ['\u2ABD']⟩,
   ⟨['s', 'u', 'b', 'e', ';'], ['\u2286']⟩,
   ⟨['s', 'u', 'b', 'e', 'd', 'o', 't', ';'], ['\u2AC3']⟩,
   ⟨['s', 'u', 'b', 'm', 'u', 'l', 't', ';'], ['\u2AC1']⟩,
   ⟨['s', 'u', 'b', 'n', 'E', ';'], ['\u2ACB']⟩,
   ⟨['s', 'u', 'b', 'n', 'e', ';'], ['\u228A']⟩,
   ⟨['s', 'u', 'b', 'p', 'l', 'u', 's', ';'], ['\u2ABF']⟩,
   ⟨['s', 'u', 'b', 'r', 'a', 'r', 'r', ';'], ['\u2979']⟩,
   ⟨['s', 'u', 'b', 's', 'e', 't', ';'], ['\u2282']⟩,
   ⟨['s', 'u', 'b', 's', 'e', 't', 'e', 'q', ';'], ['\u2286']⟩,
   ⟨['s', 'u', 'b', 's', 'e', 't', 'e', 'q', 'q', ';'], ['\u2AC5']⟩,
   ⟨['s', 'u', 'b', 's', 'e', 't', 'n', 'e', 'q', ';'], ['\u228A']⟩,
   ⟨['s', 'u', 'b', 's', 'e', 't', 'n', 'e', 'q', 'q', ';'], ['\u2ACB']⟩,
   ⟨['s', 'u', 'b', 's', 'i', 'm', ';'], ['\u2AC7']⟩,
   ⟨['s', 'u', 'b', 's', 'u', 'b', ';'], ['\u2AD5']⟩,
   ⟨['s', 'u', 'b', 's', 'u', 'p', ';'], ['\u2AD3']⟩,
   ⟨['s', 'u', 'c', 'c', ';'], ['\u227B']⟩,
   ⟨['s', 'u', 'c', 'c', 'a', 'p', 'p', 'r', 'o', 'x', ';'], ['\u2AB8']⟩,
   ⟨['s', 'u', 'c', 'c', 'c', 'u', 'r', 'l', 'y', 'e', 'q', ';'], ['\u227D']⟩,
   ⟨['s', 'u', 'c', 'c', 'e', 'q', ';'], ['\u2AB0']⟩,
   ⟨['s', 'u', 'c', 'c', 'n', 'a', 'p', 'p', 'r', 'o', 'x', ';'], ['\u2ABA']⟩,
   ⟨['s', 'u', 'c', 'c', 'n', 'e', 'q', 'q', ';'], ['\u2AB6']⟩,
   ⟨['s', 'u', 'c', 'c', 'n', 's', 'i', 'm', ';'], ['\u22E9']⟩,
   ⟨['s', 'u', 'c', 'c', 's', 'i', 'm', ';'], ['\u227F']⟩,
   ⟨['s', 'u', 'm', ';'], ['\u2211']⟩,
   ⟨['s', 'u', 'n', 'g', ';'], ['\u266A']⟩,
   ⟨['s', 'u', 'p', '1'], ['\u00B9']⟩,
   ⟨['s', 'u', 'p', '1', ';'], ['\u00B9']⟩,
   ⟨['s', 'u', 'p', '2'], ['\u00B2']⟩,
   ⟨['s', 'u', 'p', '2', ';'], ['\u00B2']⟩,
   ⟨['s', 'u', 'p', '3'], ['\u00B3']⟩,
   ⟨['s', 'u', 'p', '3', ';'], ['\u00B3']⟩,
   ⟨['s', 'u', 'p', ';'], ['\u2283']⟩,
   ⟨['s', 'u', 'p', 'E', ';'], ['\u2AC6']⟩,
   ⟨['s', 'u', 'p', 'd', 'o', 't', ';'], ['\u2ABE']⟩,
   ⟨['s', 'u', 'p', 'd', 's', 'u', 'b', ';'], ['\u2AD8']⟩,
   ⟨['s', 'u', 'p', 'e', ';'], ['\u2287']⟩,
   ⟨['s', 'u', 'p', 'e', 'd', 'o', 't', ';'], ['\u2AC4']⟩,
   ⟨['s', 'u', 'p', 'h', 's', 'o', 'l', ';'], ['\u27C9']⟩,
   ⟨['s', 'u', 'p', 'h', 's', 'u', 'b', ';'], ['\u2AD7']⟩,
   ⟨['s', 'u', 'p', 'l', 'a', 'r', 'r', ';'], ['\u297B']⟩,
   ⟨['s', 'u', 'p', 'm', 'u', 'l', 't', ';'], ['\u2AC2']⟩,
   ⟨['s', 'u', 'p', 'n', 'E', ';'], ['\u2ACC']⟩,
   ⟨['s', 'u', 'p', 'n', 'e', ';'], ['\u228B']⟩,
   ⟨['s', 'u', 'p', 'p', 'l', 'u', 's', ';'], ['\u2AC0']⟩,
   ⟨['s', 'u', 'p', 's', 'e', 't', ';'], ['\u2283']⟩,
   ⟨['s', 'u', 'p', 's', 'e', 't', 'e', 'q', ';'], ['\u2287']⟩,
   ⟨['s', 'u', 'p', 's', 'e', 't', 'e', 'q', 'q', ';'], ['\u2AC6']⟩,
   ⟨['s', 'u', 'p', 's', 'e', 't', 'n', 'e', 'q', ';'], ['\u228B']⟩,
   ⟨['s', 'u', 'p', 's', 'e', 't', 'n', 'e', 'q', 'q', ';'], ['\u2ACC']⟩,
   ⟨['s', 'u', 'p', 's', 'i', 'm', ';'], ['\u2AC8']⟩,
   ⟨['s', 'u', 'p', 's', 'u', 'b', ';'], ['\u2AD4']⟩,
   ⟨['s', 'u', 'p', 's', 'u', 'p', ';'], ['\u2AD6']⟩,
   ⟨['s', 'w', 'A', 'r', 'r', ';'], ['\u21D9']⟩,
   ⟨['s', 'w', 'a', 'r', 'h', 'k', ';'], ['\u2926']⟩,
   ⟨['s', 'w', 'a', 'r', 'r', ';'], ['\u2199']⟩,
   ⟨['s', 'w', 'a', 'r', 'r', 'o', 'w', ';'], ['\u2199']⟩,
   ⟨['s', 'w', 'n', 'w', 'a', 'r', ';'], ['\u292A']⟩,
   ⟨['s', 'z', 'l', 'i', 'g'], ['\u00DF']⟩,
   ⟨['s', 'z', 'l', 'i', 'g', ';'], ['\u00DF']⟩]

/-- The names that begin with `r` or `s`. -/
def rToS : List Entry :=
  lowerR ++ lowerS

end Hypertext.Entity.Table
