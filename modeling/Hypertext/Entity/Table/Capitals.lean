import Hypertext.Entity.Entry

/-!
# Named character references that begin with a capital letter
-/

namespace Hypertext.Entity.Table

def upperA : List Entry :=
  [⟨['A', 'E', 'l', 'i', 'g'], ['\u00C6']⟩,
   ⟨['A', 'E', 'l', 'i', 'g', ';'], ['\u00C6']⟩,
   ⟨['A', 'M', 'P'], ['&']⟩,
   ⟨['A', 'M', 'P', ';'], ['&']⟩,
   ⟨['A', 'a', 'c', 'u', 't', 'e'], ['\u00C1']⟩,
   ⟨['A', 'a', 'c', 'u', 't', 'e', ';'], ['\u00C1']⟩,
   ⟨['A', 'b', 'r', 'e', 'v', 'e', ';'], ['\u0102']⟩,
   ⟨['A', 'c', 'i', 'r', 'c'], ['\u00C2']⟩,
   ⟨['A', 'c', 'i', 'r', 'c', ';'], ['\u00C2']⟩,
   ⟨['A', 'c', 'y', ';'], ['\u0410']⟩,
   ⟨['A', 'f', 'r', ';'], ['𝔄']⟩,
   ⟨['A', 'g', 'r', 'a', 'v', 'e'], ['\u00C0']⟩,
   ⟨['A', 'g', 'r', 'a', 'v', 'e', ';'], ['\u00C0']⟩,
   ⟨['A', 'l', 'p', 'h', 'a', ';'], ['\u0391']⟩,
   ⟨['A', 'm', 'a', 'c', 'r', ';'], ['\u0100']⟩,
   ⟨['A', 'n', 'd', ';'], ['\u2A53']⟩,
   ⟨['A', 'o', 'g', 'o', 'n', ';'], ['\u0104']⟩,
   ⟨['A', 'o', 'p', 'f', ';'], ['𝔸']⟩,
   ⟨['A', 'p', 'p', 'l', 'y', 'F', 'u', 'n', 'c', 't', 'i', 'o', 'n', ';'], ['\u2061']⟩,
   ⟨['A', 'r', 'i', 'n', 'g'], ['\u00C5']⟩,
   ⟨['A', 'r', 'i', 'n', 'g', ';'], ['\u00C5']⟩,
   ⟨['A', 's', 'c', 'r', ';'], ['𝒜']⟩,
   ⟨['A', 's', 's', 'i', 'g', 'n', ';'], ['\u2254']⟩,
   ⟨['A', 't', 'i', 'l', 'd', 'e'], ['\u00C3']⟩,
   ⟨['A', 't', 'i', 'l', 'd', 'e', ';'], ['\u00C3']⟩,
   ⟨['A', 'u', 'm', 'l'], ['\u00C4']⟩,
   ⟨['A', 'u', 'm', 'l', ';'], ['\u00C4']⟩]

def upperB : List Entry :=
  [⟨['B', 'a', 'c', 'k', 's', 'l', 'a', 's', 'h', ';'], ['\u2216']⟩,
   ⟨['B', 'a', 'r', 'v', ';'], ['\u2AE7']⟩,
   ⟨['B', 'a', 'r', 'w', 'e', 'd', ';'], ['\u2306']⟩,
   ⟨['B', 'c', 'y', ';'], ['\u0411']⟩,
   ⟨['B', 'e', 'c', 'a', 'u', 's', 'e', ';'], ['\u2235']⟩,
   ⟨['B', 'e', 'r', 'n', 'o', 'u', 'l', 'l', 'i', 's', ';'], ['\u212C']⟩,
   ⟨['B', 'e', 't', 'a', ';'], ['\u0392']⟩,
   ⟨['B', 'f', 'r', ';'], ['𝔅']⟩,
   ⟨['B', 'o', 'p', 'f', ';'], ['𝔹']⟩,
   ⟨['B', 'r', 'e', 'v', 'e', ';'], ['\u02D8']⟩,
   ⟨['B', 's', 'c', 'r', ';'], ['\u212C']⟩,
   ⟨['B', 'u', 'm', 'p', 'e', 'q', ';'], ['\u224E']⟩]

def upperC : List Entry :=
  [⟨['C', 'H', 'c', 'y', ';'], ['\u0427']⟩,
   ⟨['C', 'O', 'P', 'Y'], ['\u00A9']⟩,
   ⟨['C', 'O', 'P', 'Y', ';'], ['\u00A9']⟩,
   ⟨['C', 'a', 'c', 'u', 't', 'e', ';'], ['\u0106']⟩,
   ⟨['C', 'a', 'p', ';'], ['\u22D2']⟩,
   ⟨['C', 'a', 'p', 'i', 't', 'a', 'l', 'D', 'i', 'f', 'f', 'e', 'r', 'e', 'n', 't', 'i', 'a', 'l',
      'D', ';'], ['\u2145']⟩,
   ⟨['C', 'a', 'y', 'l', 'e', 'y', 's', ';'], ['\u212D']⟩,
   ⟨['C', 'c', 'a', 'r', 'o', 'n', ';'], ['\u010C']⟩,
   ⟨['C', 'c', 'e', 'd', 'i', 'l'], ['\u00C7']⟩,
   ⟨['C', 'c', 'e', 'd', 'i', 'l', ';'], ['\u00C7']⟩,
   ⟨['C', 'c', 'i', 'r', 'c', ';'], ['\u0108']⟩,
   ⟨['C', 'c', 'o', 'n', 'i', 'n', 't', ';'], ['\u2230']⟩,
   ⟨['C', 'd', 'o', 't', ';'], ['\u010A']⟩,
   ⟨['C', 'e', 'd', 'i', 'l', 'l', 'a', ';'], ['\u00B8']⟩,
   ⟨['C', 'e', 'n', 't', 'e', 'r', 'D', 'o', 't', ';'], ['\u00B7']⟩,
   ⟨['C', 'f', 'r', ';'], ['\u212D']⟩,
   ⟨['C', 'h', 'i', ';'], ['\u03A7']⟩,
   ⟨['C', 'i', 'r', 'c', 'l', 'e', 'D', 'o', 't', ';'], ['\u2299']⟩,
   ⟨['C', 'i', 'r', 'c', 'l', 'e', 'M', 'i', 'n', 'u', 's', ';'], ['\u2296']⟩,
   ⟨['C', 'i', 'r', 'c', 'l', 'e', 'P', 'l', 'u', 's', ';'], ['\u2295']⟩,
   ⟨['C', 'i', 'r', 'c', 'l', 'e', 'T', 'i', 'm', 'e', 's', ';'], ['\u2297']⟩,
   ⟨['C', 'l', 'o', 'c', 'k', 'w', 'i', 's', 'e', 'C', 'o', 'n', 't', 'o', 'u', 'r', 'I', 'n', 't',
      'e', 'g', 'r', 'a', 'l', ';'], ['\u2232']⟩,
   ⟨['C', 'l', 'o', 's', 'e', 'C', 'u', 'r', 'l', 'y', 'D', 'o', 'u', 'b', 'l', 'e', 'Q', 'u', 'o',
      't', 'e', ';'], ['\u201D']⟩,
   ⟨['C', 'l', 'o', 's', 'e', 'C', 'u', 'r', 'l', 'y', 'Q', 'u', 'o', 't', 'e', ';'], ['\u2019']⟩,
   ⟨['C', 'o', 'l', 'o', 'n', ';'], ['\u2237']⟩,
   ⟨['C', 'o', 'l', 'o', 'n', 'e', ';'], ['\u2A74']⟩,
   ⟨['C', 'o', 'n', 'g', 'r', 'u', 'e', 'n', 't', ';'], ['\u2261']⟩,
   ⟨['C', 'o', 'n', 'i', 'n', 't', ';'], ['\u222F']⟩,
   ⟨['C', 'o', 'n', 't', 'o', 'u', 'r', 'I', 'n', 't', 'e', 'g', 'r', 'a', 'l', ';'], ['\u222E']⟩,
   ⟨['C', 'o', 'p', 'f', ';'], ['\u2102']⟩,
   ⟨['C', 'o', 'p', 'r', 'o', 'd', 'u', 'c', 't', ';'], ['\u2210']⟩,
   ⟨['C', 'o', 'u', 'n', 't', 'e', 'r', 'C', 'l', 'o', 'c', 'k', 'w', 'i', 's', 'e', 'C', 'o', 'n',
      't', 'o', 'u', 'r', 'I', 'n', 't', 'e', 'g', 'r', 'a', 'l', ';'], ['\u2233']⟩,
   ⟨['C', 'r', 'o', 's', 's', ';'], ['\u2A2F']⟩,
   ⟨['C', 's', 'c', 'r', ';'], ['𝒞']⟩,
   ⟨['C', 'u', 'p', ';'], ['\u22D3']⟩,
   ⟨['C', 'u', 'p', 'C', 'a', 'p', ';'], ['\u224D']⟩]

def upperD : List Entry :=
  [⟨['D', 'D', ';'], ['\u2145']⟩,
   ⟨['D', 'D', 'o', 't', 'r', 'a', 'h', 'd', ';'], ['\u2911']⟩,
   ⟨['D', 'J', 'c', 'y', ';'], ['\u0402']⟩,
   ⟨['D', 'S', 'c', 'y', ';'], ['\u0405']⟩,
   ⟨['D', 'Z', 'c', 'y', ';'], ['\u040F']⟩,
   ⟨['D', 'a', 'g', 'g', 'e', 'r', ';'], ['\u2021']⟩,
   ⟨['D', 'a', 'r', 'r', ';'], ['\u21A1']⟩,
   ⟨['D', 'a', 's', 'h', 'v', ';'], ['\u2AE4']⟩,
   ⟨['D', 'c', 'a', 'r', 'o', 'n', ';'], ['\u010E']⟩,
   ⟨['D', 'c', 'y', ';'], ['\u0414']⟩,
   ⟨['D', 'e', 'l', ';'], ['\u2207']⟩,
   ⟨['D', 'e', 'l', 't', 'a', ';'], ['\u0394']⟩,
   ⟨['D', 'f', 'r', ';'], ['𝔇']⟩,
   ⟨['D', 'i', 'a', 'c', 'r', 'i', 't', 'i', 'c', 'a', 'l', 'A', 'c', 'u', 't', 'e', ';'],
    ['\u00B4']⟩,
   ⟨['D', 'i', 'a', 'c', 'r', 'i', 't', 'i', 'c', 'a', 'l', 'D', 'o', 't', ';'], ['\u02D9']⟩,
   ⟨['D', 'i', 'a', 'c', 'r', 'i', 't', 'i', 'c', 'a', 'l', 'D', 'o', 'u', 'b', 'l', 'e', 'A', 'c',
      'u', 't', 'e', ';'], ['\u02DD']⟩,
   ⟨['D', 'i', 'a', 'c', 'r', 'i', 't', 'i', 'c', 'a', 'l', 'G', 'r', 'a', 'v', 'e', ';'],
    ['\x60']⟩,
   ⟨['D', 'i', 'a', 'c', 'r', 'i', 't', 'i', 'c', 'a', 'l', 'T', 'i', 'l', 'd', 'e', ';'],
    ['\u02DC']⟩,
   ⟨['D', 'i', 'a', 'm', 'o', 'n', 'd', ';'], ['\u22C4']⟩,
   ⟨['D', 'i', 'f', 'f', 'e', 'r', 'e', 'n', 't', 'i', 'a', 'l', 'D', ';'], ['\u2146']⟩,
   ⟨['D', 'o', 'p', 'f', ';'], ['𝔻']⟩,
   ⟨['D', 'o', 't', ';'], ['\u00A8']⟩,
   ⟨['D', 'o', 't', 'D', 'o', 't', ';'], ['\u20DC']⟩,
   ⟨['D', 'o', 't', 'E', 'q', 'u', 'a', 'l', ';'], ['\u2250']⟩,
   ⟨['D', 'o', 'u', 'b', 'l', 'e', 'C', 'o', 'n', 't', 'o', 'u', 'r', 'I', 'n', 't', 'e', 'g', 'r',
      'a', 'l', ';'], ['\u222F']⟩,
   ⟨['D', 'o', 'u', 'b', 'l', 'e', 'D', 'o', 't', ';'], ['\u00A8']⟩,
   ⟨['D', 'o', 'u', 'b', 'l', 'e', 'D', 'o', 'w', 'n', 'A', 'r', 'r', 'o', 'w', ';'], ['\u21D3']⟩,
   ⟨['D', 'o', 'u', 'b', 'l', 'e', 'L', 'e', 'f', 't', 'A', 'r', 'r', 'o', 'w', ';'], ['\u21D0']⟩,
   ⟨['D', 'o', 'u', 'b', 'l', 'e', 'L', 'e', 'f', 't', 'R', 'i', 'g', 'h', 't', 'A', 'r', 'r', 'o',
      'w', ';'], ['\u21D4']⟩,
   ⟨['D', 'o', 'u', 'b', 'l', 'e', 'L', 'e', 'f', 't', 'T', 'e', 'e', ';'], ['\u2AE4']⟩,
   ⟨['D', 'o', 'u', 'b', 'l', 'e', 'L', 'o', 'n', 'g', 'L', 'e', 'f', 't', 'A', 'r', 'r', 'o', 'w',
      ';'], ['\u27F8']⟩,
   ⟨['D', 'o', 'u', 'b', 'l', 'e', 'L', 'o', 'n', 'g', 'L', 'e', 'f', 't', 'R', 'i', 'g', 'h', 't',
      'A', 'r', 'r', 'o', 'w', ';'], ['\u27FA']⟩,
   ⟨['D', 'o', 'u', 'b', 'l', 'e', 'L', 'o', 'n', 'g', 'R', 'i', 'g', 'h', 't', 'A', 'r', 'r', 'o',
      'w', ';'], ['\u27F9']⟩,
   ⟨['D', 'o', 'u', 'b', 'l', 'e', 'R', 'i', 'g', 'h', 't', 'A', 'r', 'r', 'o', 'w', ';'],
    ['\u21D2']⟩,
   ⟨['D', 'o', 'u', 'b', 'l', 'e', 'R', 'i', 'g', 'h', 't', 'T', 'e', 'e', ';'], ['\u22A8']⟩,
   ⟨['D', 'o', 'u', 'b', 'l', 'e', 'U', 'p', 'A', 'r', 'r', 'o', 'w', ';'], ['\u21D1']⟩,
   ⟨['D', 'o', 'u', 'b', 'l', 'e', 'U', 'p', 'D', 'o', 'w', 'n', 'A', 'r', 'r', 'o', 'w', ';'],
    ['\u21D5']⟩,
   ⟨['D', 'o', 'u', 'b', 'l', 'e', 'V', 'e', 'r', 't', 'i', 'c', 'a', 'l', 'B', 'a', 'r', ';'],
    ['\u2225']⟩,
   ⟨['D', 'o', 'w', 'n', 'A', 'r', 'r', 'o', 'w', ';'], ['\u2193']⟩,
   ⟨['D', 'o', 'w', 'n', 'A', 'r', 'r', 'o', 'w', 'B', 'a', 'r', ';'], ['\u2913']⟩,
   ⟨['D', 'o', 'w', 'n', 'A', 'r', 'r', 'o', 'w', 'U', 'p', 'A', 'r', 'r', 'o', 'w', ';'],
    ['\u21F5']⟩,
   ⟨['D', 'o', 'w', 'n', 'B', 'r', 'e', 'v', 'e', ';'], ['\u0311']⟩,
   ⟨['D', 'o', 'w', 'n', 'L', 'e', 'f', 't', 'R', 'i', 'g', 'h', 't', 'V', 'e', 'c', 't', 'o', 'r',
      ';'], ['\u2950']⟩,
   ⟨['D', 'o', 'w', 'n', 'L', 'e', 'f', 't', 'T', 'e', 'e', 'V', 'e', 'c', 't', 'o', 'r', ';'],
    ['\u295E']⟩,
   ⟨['D', 'o', 'w', 'n', 'L', 'e', 'f', 't', 'V', 'e', 'c', 't', 'o', 'r', ';'], ['\u21BD']⟩,
   ⟨['D', 'o', 'w', 'n', 'L', 'e', 'f', 't', 'V', 'e', 'c', 't', 'o', 'r', 'B', 'a', 'r', ';'],
    ['\u2956']⟩,
   ⟨['D', 'o', 'w', 'n', 'R', 'i', 'g', 'h', 't', 'T', 'e', 'e', 'V', 'e', 'c', 't', 'o', 'r', ';'],
    ['\u295F']⟩,
   ⟨['D', 'o', 'w', 'n', 'R', 'i', 'g', 'h', 't', 'V', 'e', 'c', 't', 'o', 'r', ';'], ['\u21C1']⟩,
   ⟨['D', 'o', 'w', 'n', 'R', 'i', 'g', 'h', 't', 'V', 'e', 'c', 't', 'o', 'r', 'B', 'a', 'r', ';'],
    ['\u2957']⟩,
   ⟨['D', 'o', 'w', 'n', 'T', 'e', 'e', ';'], ['\u22A4']⟩,
   ⟨['D', 'o', 'w', 'n', 'T', 'e', 'e', 'A', 'r', 'r', 'o', 'w', ';'], ['\u21A7']⟩,
   ⟨['D', 'o', 'w', 'n', 'a', 'r', 'r', 'o', 'w', ';'], ['\u21D3']⟩,
   ⟨['D', 's', 'c', 'r', ';'], ['𝒟']⟩,
   ⟨['D', 's', 't', 'r', 'o', 'k', ';'], ['\u0110']⟩]

def upperE : List Entry :=
  [⟨['E', 'N', 'G', ';'], ['\u014A']⟩,
   ⟨['E', 'T', 'H'], ['\u00D0']⟩,
   ⟨['E', 'T', 'H', ';'], ['\u00D0']⟩,
   ⟨['E', 'a', 'c', 'u', 't', 'e'], ['\u00C9']⟩,
   ⟨['E', 'a', 'c', 'u', 't', 'e', ';'], ['\u00C9']⟩,
   ⟨['E', 'c', 'a', 'r', 'o', 'n', ';'], ['\u011A']⟩,
   ⟨['E', 'c', 'i', 'r', 'c'], ['\u00CA']⟩,
   ⟨['E', 'c', 'i', 'r', 'c', ';'], ['\u00CA']⟩,
   ⟨['E', 'c', 'y', ';'], ['\u042D']⟩,
   ⟨['E', 'd', 'o', 't', ';'], ['\u0116']⟩,
   ⟨['E', 'f', 'r', ';'], ['𝔈']⟩,
   ⟨['E', 'g', 'r', 'a', 'v', 'e'], ['\u00C8']⟩,
   ⟨['E', 'g', 'r', 'a', 'v', 'e', ';'], ['\u00C8']⟩,
   ⟨['E', 'l', 'e', 'm', 'e', 'n', 't', ';'], ['\u2208']⟩,
   ⟨['E', 'm', 'a', 'c', 'r', ';'], ['\u0112']⟩,
   ⟨['E', 'm', 'p', 't', 'y', 'S', 'm', 'a', 'l', 'l', 'S', 'q', 'u', 'a', 'r', 'e', ';'],
    ['\u25FB']⟩,
   ⟨['E', 'm', 'p', 't', 'y', 'V', 'e', 'r', 'y', 'S', 'm', 'a', 'l', 'l', 'S', 'q', 'u', 'a', 'r',
      'e', ';'], ['\u25AB']⟩,
   ⟨['E', 'o', 'g', 'o', 'n', ';'], ['\u0118']⟩,
   ⟨['E', 'o', 'p', 'f', ';'], ['𝔼']⟩,
   ⟨['E', 'p', 's', 'i', 'l', 'o', 'n', ';'], ['\u0395']⟩,
   ⟨['E', 'q', 'u', 'a', 'l', ';'], ['\u2A75']⟩,
   ⟨['E', 'q', 'u', 'a', 'l', 'T', 'i', 'l', 'd', 'e', ';'], ['\u2242']⟩,
   ⟨['E', 'q', 'u', 'i', 'l', 'i', 'b', 'r', 'i', 'u', 'm', ';'], ['\u21CC']⟩,
   ⟨['E', 's', 'c', 'r', ';'], ['\u2130']⟩,
   ⟨['E', 's', 'i', 'm', ';'], ['\u2A73']⟩,
   ⟨['E', 't', 'a', ';'], ['\u0397']⟩,
   ⟨['E', 'u', 'm', 'l'], ['\u00CB']⟩,
   ⟨['E', 'u', 'm', 'l', ';'], ['\u00CB']⟩,
   ⟨['E', 'x', 'i', 's', 't', 's', ';'], ['\u2203']⟩,
   ⟨['E', 'x', 'p', 'o', 'n', 'e', 'n', 't', 'i', 'a', 'l', 'E', ';'], ['\u2147']⟩]

def upperF : List Entry :=
  [⟨['F', 'c', 'y', ';'], ['\u0424']⟩,
   ⟨['F', 'f', 'r', ';'], ['𝔉']⟩,
   ⟨['F', 'i', 'l', 'l', 'e', 'd', 'S', 'm', 'a', 'l', 'l', 'S', 'q', 'u', 'a', 'r', 'e', ';'],
    ['\u25FC']⟩,
   ⟨['F', 'i', 'l', 'l', 'e', 'd', 'V', 'e', 'r', 'y', 'S', 'm', 'a', 'l', 'l', 'S', 'q', 'u', 'a',
      'r', 'e', ';'], ['\u25AA']⟩,
   ⟨['F', 'o', 'p', 'f', ';'], ['𝔽']⟩,
   ⟨['F', 'o', 'r', 'A', 'l', 'l', ';'], ['\u2200']⟩,
   ⟨['F', 'o', 'u', 'r', 'i', 'e', 'r', 't', 'r', 'f', ';'], ['\u2131']⟩,
   ⟨['F', 's', 'c', 'r', ';'], ['\u2131']⟩]

def upperG : List Entry :=
  [⟨['G', 'J', 'c', 'y', ';'], ['\u0403']⟩,
   ⟨['G', 'T'], ['>']⟩,
   ⟨['G', 'T', ';'], ['>']⟩,
   ⟨['G', 'a', 'm', 'm', 'a', ';'], ['\u0393']⟩,
   ⟨['G', 'a', 'm', 'm', 'a', 'd', ';'], ['\u03DC']⟩,
   ⟨['G', 'b', 'r', 'e', 'v', 'e', ';'], ['\u011E']⟩,
   ⟨['G', 'c', 'e', 'd', 'i', 'l', ';'], ['\u0122']⟩,
   ⟨['G', 'c', 'i', 'r', 'c', ';'], ['\u011C']⟩,
   ⟨['G', 'c', 'y', ';'], ['\u0413']⟩,
   ⟨['G', 'd', 'o', 't', ';'], ['\u0120']⟩,
   ⟨['G', 'f', 'r', ';'], ['𝔊']⟩,
   ⟨['G', 'g', ';'], ['\u22D9']⟩,
   ⟨['G', 'o', 'p', 'f', ';'], ['𝔾']⟩,
   ⟨['G', 'r', 'e', 'a', 't', 'e', 'r', 'E', 'q', 'u', 'a', 'l', ';'], ['\u2265']⟩,
   ⟨['G', 'r', 'e', 'a', 't', 'e', 'r', 'E', 'q', 'u', 'a', 'l', 'L', 'e', 's', 's', ';'],
    ['\u22DB']⟩,
   ⟨['G', 'r', 'e', 'a', 't', 'e', 'r', 'F', 'u', 'l', 'l', 'E', 'q', 'u', 'a', 'l', ';'],
    ['\u2267']⟩,
   ⟨['G', 'r', 'e', 'a', 't', 'e', 'r', 'G', 'r', 'e', 'a', 't', 'e', 'r', ';'], ['\u2AA2']⟩,
   ⟨['G', 'r', 'e', 'a', 't', 'e', 'r', 'L', 'e', 's', 's', ';'], ['\u2277']⟩,
   ⟨['G', 'r', 'e', 'a', 't', 'e', 'r', 'S', 'l', 'a', 'n', 't', 'E', 'q', 'u', 'a', 'l', ';'],
    ['\u2A7E']⟩,
   ⟨['G', 'r', 'e', 'a', 't', 'e', 'r', 'T', 'i', 'l', 'd', 'e', ';'], ['\u2273']⟩,
   ⟨['G', 's', 'c', 'r', ';'], ['𝒢']⟩,
   ⟨['G', 't', ';'], ['\u226B']⟩]

def upperH : List Entry :=
  [⟨['H', 'A', 'R', 'D', 'c', 'y', ';'], ['\u042A']⟩,
   ⟨['H', 'a', 'c', 'e', 'k', ';'], ['\u02C7']⟩,
   ⟨['H', 'a', 't', ';'], ['^']⟩,
   ⟨['H', 'c', 'i', 'r', 'c', ';'], ['\u0124']⟩,
   ⟨['H', 'f', 'r', ';'], ['\u210C']⟩,
   ⟨['H', 'i', 'l', 'b', 'e', 'r', 't', 'S', 'p', 'a', 'c', 'e', ';'], ['\u210B']⟩,
   ⟨['H', 'o', 'p', 'f', ';'], ['\u210D']⟩,
   ⟨['H', 'o', 'r', 'i', 'z', 'o', 'n', 't', 'a', 'l', 'L', 'i', 'n', 'e', ';'], ['\u2500']⟩,
   ⟨['H', 's', 'c', 'r', ';'], ['\u210B']⟩,
   ⟨['H', 's', 't', 'r', 'o', 'k', ';'], ['\u0126']⟩,
   ⟨['H', 'u', 'm', 'p', 'D', 'o', 'w', 'n', 'H', 'u', 'm', 'p', ';'], ['\u224E']⟩,
   ⟨['H', 'u', 'm', 'p', 'E', 'q', 'u', 'a', 'l', ';'], ['\u224F']⟩]

def upperI : List Entry :=
  [⟨['I', 'E', 'c', 'y', ';'], ['\u0415']⟩,
   ⟨['I', 'J', 'l', 'i', 'g', ';'], ['\u0132']⟩,
   ⟨['I', 'O', 'c', 'y', ';'], ['\u0401']⟩,
   ⟨['I', 'a', 'c', 'u', 't', 'e'], ['\u00CD']⟩,
   ⟨['I', 'a', 'c', 'u', 't', 'e', ';'], ['\u00CD']⟩,
   ⟨['I', 'c', 'i', 'r', 'c'], ['\u00CE']⟩,
   ⟨['I', 'c', 'i', 'r', 'c', ';'], ['\u00CE']⟩,
   ⟨['I', 'c', 'y', ';'], ['\u0418']⟩,
   ⟨['I', 'd', 'o', 't', ';'], ['\u0130']⟩,
   ⟨['I', 'f', 'r', ';'], ['\u2111']⟩,
   ⟨['I', 'g', 'r', 'a', 'v', 'e'], ['\u00CC']⟩,
   ⟨['I', 'g', 'r', 'a', 'v', 'e', ';'], ['\u00CC']⟩,
   ⟨['I', 'm', ';'], ['\u2111']⟩,
   ⟨['I', 'm', 'a', 'c', 'r', ';'], ['\u012A']⟩,
   ⟨['I', 'm', 'a', 'g', 'i', 'n', 'a', 'r', 'y', 'I', ';'], ['\u2148']⟩,
   ⟨['I', 'm', 'p', 'l', 'i', 'e', 's', ';'], ['\u21D2']⟩,
   ⟨['I', 'n', 't', ';'], ['\u222C']⟩,
   ⟨['I', 'n', 't', 'e', 'g', 'r', 'a', 'l', ';'], ['\u222B']⟩,
   ⟨['I', 'n', 't', 'e', 'r', 's', 'e', 'c', 't', 'i', 'o', 'n', ';'], ['\u22C2']⟩,
   ⟨['I', 'n', 'v', 'i', 's', 'i', 'b', 'l', 'e', 'C', 'o', 'm', 'm', 'a', ';'], ['\u2063']⟩,
   ⟨['I', 'n', 'v', 'i', 's', 'i', 'b', 'l', 'e', 'T', 'i', 'm', 'e', 's', ';'], ['\u2062']⟩,
   ⟨['I', 'o', 'g', 'o', 'n', ';'], ['\u012E']⟩,
   ⟨['I', 'o', 'p', 'f', ';'], ['𝕀']⟩,
   ⟨['I', 'o', 't', 'a', ';'], ['\u0399']⟩,
   ⟨['I', 's', 'c', 'r', ';'], ['\u2110']⟩,
   ⟨['I', 't', 'i', 'l', 'd', 'e', ';'], ['\u0128']⟩,
   ⟨['I', 'u', 'k', 'c', 'y', ';'], ['\u0406']⟩,
   ⟨['I', 'u', 'm', 'l'], ['\u00CF']⟩,
   ⟨['I', 'u', 'm', 'l', ';'], ['\u00CF']⟩]

def upperJ : List Entry :=
  [⟨['J', 'c', 'i', 'r', 'c', ';'], ['\u0134']⟩,
   ⟨['J', 'c', 'y', ';'], ['\u0419']⟩,
   ⟨['J', 'f', 'r', ';'], ['𝔍']⟩,
   ⟨['J', 'o', 'p', 'f', ';'], ['𝕁']⟩,
   ⟨['J', 's', 'c', 'r', ';'], ['𝒥']⟩,
   ⟨['J', 's', 'e', 'r', 'c', 'y', ';'], ['\u0408']⟩,
   ⟨['J', 'u', 'k', 'c', 'y', ';'], ['\u0404']⟩]

def upperK : List Entry :=
  [⟨['K', 'H', 'c', 'y', ';'], ['\u0425']⟩,
   ⟨['K', 'J', 'c', 'y', ';'], ['\u040C']⟩,
   ⟨['K', 'a', 'p', 'p', 'a', ';'], ['\u039A']⟩,
   ⟨['K', 'c', 'e', 'd', 'i', 'l', ';'], ['\u0136']⟩,
   ⟨['K', 'c', 'y', ';'], ['\u041A']⟩,
   ⟨['K', 'f', 'r', ';'], ['𝔎']⟩,
   ⟨['K', 'o', 'p', 'f', ';'], ['𝕂']⟩,
   ⟨['K', 's', 'c', 'r', ';'], ['𝒦']⟩]

def upperL : List Entry :=
  [⟨['L', 'J', 'c', 'y', ';'], ['\u0409']⟩,
   ⟨['L', 'T'], ['<']⟩,
   ⟨['L', 'T', ';'], ['<']⟩,
   ⟨['L', 'a', 'c', 'u', 't', 'e', ';'], ['\u0139']⟩,
   ⟨['L', 'a', 'm', 'b', 'd', 'a', ';'], ['\u039B']⟩,
   ⟨['L', 'a', 'n', 'g', ';'], ['\u27EA']⟩,
   ⟨['L', 'a', 'p', 'l', 'a', 'c', 'e', 't', 'r', 'f', ';'], ['\u2112']⟩,
   ⟨['L', 'a', 'r', 'r', ';'], ['\u219E']⟩,
   ⟨['L', 'c', 'a', 'r', 'o', 'n', ';'], ['\u013D']⟩,
   ⟨['L', 'c', 'e', 'd', 'i', 'l', ';'], ['\u013B']⟩,
   ⟨['L', 'c', 'y', ';'], ['\u041B']⟩,
   ⟨['L', 'e', 'f', 't', 'A', 'n', 'g', 'l', 'e', 'B', 'r', 'a', 'c', 'k', 'e', 't', ';'],
    ['\u27E8']⟩,
   ⟨['L', 'e', 'f', 't', 'A', 'r', 'r', 'o', 'w', ';'], ['\u2190']⟩,
   ⟨['L', 'e', 'f', 't', 'A', 'r', 'r', 'o', 'w', 'B', 'a', 'r', ';'], ['\u21E4']⟩,
   ⟨['L', 'e', 'f', 't', 'A', 'r', 'r', 'o', 'w', 'R', 'i', 'g', 'h', 't', 'A', 'r', 'r', 'o', 'w',
      ';'], ['\u21C6']⟩,
   ⟨['L', 'e', 'f', 't', 'C', 'e', 'i', 'l', 'i', 'n', 'g', ';'], ['\u2308']⟩,
   ⟨['L', 'e', 'f', 't', 'D', 'o', 'u', 'b', 'l', 'e', 'B', 'r', 'a', 'c', 'k', 'e', 't', ';'],
    ['\u27E6']⟩,
   ⟨['L', 'e', 'f', 't', 'D', 'o', 'w', 'n', 'T', 'e', 'e', 'V', 'e', 'c', 't', 'o', 'r', ';'],
    ['\u2961']⟩,
   ⟨['L', 'e', 'f', 't', 'D', 'o', 'w', 'n', 'V', 'e', 'c', 't', 'o', 'r', ';'], ['\u21C3']⟩,
   ⟨['L', 'e', 'f', 't', 'D', 'o', 'w', 'n', 'V', 'e', 'c', 't', 'o', 'r', 'B', 'a', 'r', ';'],
    ['\u2959']⟩,
   ⟨['L', 'e', 'f', 't', 'F', 'l', 'o', 'o', 'r', ';'], ['\u230A']⟩,
   ⟨['L', 'e', 'f', 't', 'R', 'i', 'g', 'h', 't', 'A', 'r', 'r', 'o', 'w', ';'], ['\u2194']⟩,
   ⟨['L', 'e', 'f', 't', 'R', 'i', 'g', 'h', 't', 'V', 'e', 'c', 't', 'o', 'r', ';'], ['\u294E']⟩,
   ⟨['L', 'e', 'f', 't', 'T', 'e', 'e', ';'], ['\u22A3']⟩,
   ⟨['L', 'e', 'f', 't', 'T', 'e', 'e', 'A', 'r', 'r', 'o', 'w', ';'], ['\u21A4']⟩,
   ⟨['L', 'e', 'f', 't', 'T', 'e', 'e', 'V', 'e', 'c', 't', 'o', 'r', ';'], ['\u295A']⟩,
   ⟨['L', 'e', 'f', 't', 'T', 'r', 'i', 'a', 'n', 'g', 'l', 'e', ';'], ['\u22B2']⟩,
   ⟨['L', 'e', 'f', 't', 'T', 'r', 'i', 'a', 'n', 'g', 'l', 'e', 'B', 'a', 'r', ';'], ['\u29CF']⟩,
   ⟨['L', 'e', 'f', 't', 'T', 'r', 'i', 'a', 'n', 'g', 'l', 'e', 'E', 'q', 'u', 'a', 'l', ';'],
    ['\u22B4']⟩,
   ⟨['L', 'e', 'f', 't', 'U', 'p', 'D', 'o', 'w', 'n', 'V', 'e', 'c', 't', 'o', 'r', ';'],
    ['\u2951']⟩,
   ⟨['L', 'e', 'f', 't', 'U', 'p', 'T', 'e', 'e', 'V', 'e', 'c', 't', 'o', 'r', ';'], ['\u2960']⟩,
   ⟨['L', 'e', 'f', 't', 'U', 'p', 'V', 'e', 'c', 't', 'o', 'r', ';'], ['\u21BF']⟩,
   ⟨['L', 'e', 'f', 't', 'U', 'p', 'V', 'e', 'c', 't', 'o', 'r', 'B', 'a', 'r', ';'], ['\u2958']⟩,
   ⟨['L', 'e', 'f', 't', 'V', 'e', 'c', 't', 'o', 'r', ';'], ['\u21BC']⟩,
   ⟨['L', 'e', 'f', 't', 'V', 'e', 'c', 't', 'o', 'r', 'B', 'a', 'r', ';'], ['\u2952']⟩,
   ⟨['L', 'e', 'f', 't', 'a', 'r', 'r', 'o', 'w', ';'], ['\u21D0']⟩,
   ⟨['L', 'e', 'f', 't', 'r', 'i', 'g', 'h', 't', 'a', 'r', 'r', 'o', 'w', ';'], ['\u21D4']⟩,
   ⟨['L', 'e', 's', 's', 'E', 'q', 'u', 'a', 'l', 'G', 'r', 'e', 'a', 't', 'e', 'r', ';'],
    ['\u22DA']⟩,
   ⟨['L', 'e', 's', 's', 'F', 'u', 'l', 'l', 'E', 'q', 'u', 'a', 'l', ';'], ['\u2266']⟩,
   ⟨['L', 'e', 's', 's', 'G', 'r', 'e', 'a', 't', 'e', 'r', ';'], ['\u2276']⟩,
   ⟨['L', 'e', 's', 's', 'L', 'e', 's', 's', ';'], ['\u2AA1']⟩,
   ⟨['L', 'e', 's', 's', 'S', 'l', 'a', 'n', 't', 'E', 'q', 'u', 'a', 'l', ';'], ['\u2A7D']⟩,
   ⟨['L', 'e', 's', 's', 'T', 'i', 'l', 'd', 'e', ';'], ['\u2272']⟩,
   ⟨['L', 'f', 'r', ';'], ['𝔏']⟩,
   ⟨['L', 'l', ';'], ['\u22D8']⟩,
   ⟨['L', 'l', 'e', 'f', 't', 'a', 'r', 'r', 'o', 'w', ';'], ['\u21DA']⟩,
   ⟨['L', 'm', 'i', 'd', 'o', 't', ';'], ['\u013F']⟩,
   ⟨['L', 'o', 'n', 'g', 'L', 'e', 'f', 't', 'A', 'r', 'r', 'o', 'w', ';'], ['\u27F5']⟩,
   ⟨['L', 'o', 'n', 'g', 'L', 'e', 'f', 't', 'R', 'i', 'g', 'h', 't', 'A', 'r', 'r', 'o', 'w', ';'],
    ['\u27F7']⟩,
   ⟨['L', 'o', 'n', 'g', 'R', 'i', 'g', 'h', 't', 'A', 'r', 'r', 'o', 'w', ';'], ['\u27F6']⟩,
   ⟨['L', 'o', 'n', 'g', 'l', 'e', 'f', 't', 'a', 'r', 'r', 'o', 'w', ';'], ['\u27F8']⟩,
   ⟨['L', 'o', 'n', 'g', 'l', 'e', 'f', 't', 'r', 'i', 'g', 'h', 't', 'a', 'r', 'r', 'o', 'w', ';'],
    ['\u27FA']⟩,
   ⟨['L', 'o', 'n', 'g', 'r', 'i', 'g', 'h', 't', 'a', 'r', 'r', 'o', 'w', ';'], ['\u27F9']⟩,
   ⟨['L', 'o', 'p', 'f', ';'], ['𝕃']⟩,
   ⟨['L', 'o', 'w', 'e', 'r', 'L', 'e', 'f', 't', 'A', 'r', 'r', 'o', 'w', ';'], ['\u2199']⟩,
   ⟨['L', 'o', 'w', 'e', 'r', 'R', 'i', 'g', 'h', 't', 'A', 'r', 'r', 'o', 'w', ';'], ['\u2198']⟩,
   ⟨['L', 's', 'c', 'r', ';'], ['\u2112']⟩,
   ⟨['L', 's', 'h', ';'], ['\u21B0']⟩,
   ⟨['L', 's', 't', 'r', 'o', 'k', ';'], ['\u0141']⟩,
   ⟨['L', 't', ';'], ['\u226A']⟩]

def upperM : List Entry :=
  [⟨['M', 'a', 'p', ';'], ['\u2905']⟩,
   ⟨['M', 'c', 'y', ';'], ['\u041C']⟩,
   ⟨['M', 'e', 'd', 'i', 'u', 'm', 'S', 'p', 'a', 'c', 'e', ';'], ['\u205F']⟩,
   ⟨['M', 'e', 'l', 'l', 'i', 'n', 't', 'r', 'f', ';'], ['\u2133']⟩,
   ⟨['M', 'f', 'r', ';'], ['𝔐']⟩,
   ⟨['M', 'i', 'n', 'u', 's', 'P', 'l', 'u', 's', ';'], ['\u2213']⟩,
   ⟨['M', 'o', 'p', 'f', ';'], ['𝕄']⟩,
   ⟨['M', 's', 'c', 'r', ';'], ['\u2133']⟩,
   ⟨['M', 'u', ';'], ['\u039C']⟩]

def upperN : List Entry :=
  [⟨['N', 'J', 'c', 'y', ';'], ['\u040A']⟩,
   ⟨['N', 'a', 'c', 'u', 't', 'e', ';'], ['\u0143']⟩,
   ⟨['N', 'c', 'a', 'r', 'o', 'n', ';'], ['\u0147']⟩,
   ⟨['N', 'c', 'e', 'd', 'i', 'l', ';'], ['\u0145']⟩,
   ⟨['N', 'c', 'y', ';'], ['\u041D']⟩,
   ⟨['N', 'e', 'g', 'a', 't', 'i', 'v', 'e', 'M', 'e', 'd', 'i', 'u', 'm', 'S', 'p', 'a', 'c', 'e',
      ';'], ['\u200B']⟩,
   ⟨['N', 'e', 'g', 'a', 't', 'i', 'v', 'e', 'T', 'h', 'i', 'c', 'k', 'S', 'p', 'a', 'c', 'e', ';'],
    ['\u200B']⟩,
   ⟨['N', 'e', 'g', 'a', 't', 'i', 'v', 'e', 'T', 'h', 'i', 'n', 'S', 'p', 'a', 'c', 'e', ';'],
    ['\u200B']⟩,
   ⟨['N', 'e', 'g', 'a', 't', 'i', 'v', 'e', 'V', 'e', 'r', 'y', 'T', 'h', 'i', 'n', 'S', 'p', 'a',
      'c', 'e', ';'], ['\u200B']⟩,
   ⟨['N', 'e', 's', 't', 'e', 'd', 'G', 'r', 'e', 'a', 't', 'e', 'r', 'G', 'r', 'e', 'a', 't', 'e',
      'r', ';'], ['\u226B']⟩,
   ⟨['N', 'e', 's', 't', 'e', 'd', 'L', 'e', 's', 's', 'L', 'e', 's', 's', ';'], ['\u226A']⟩,
   ⟨['N', 'e', 'w', 'L', 'i', 'n', 'e', ';'], ['\n']⟩,
   ⟨['N', 'f', 'r', ';'], ['𝔑']⟩,
   ⟨['N', 'o', 'B', 'r', 'e', 'a', 'k', ';'], ['\u2060']⟩,
   ⟨['N', 'o', 'n', 'B', 'r', 'e', 'a', 'k', 'i', 'n', 'g', 'S', 'p', 'a', 'c', 'e', ';'],
    ['\u00A0']⟩,
   ⟨['N', 'o', 'p', 'f', ';'], ['\u2115']⟩,
   ⟨['N', 'o', 't', ';'], ['\u2AEC']⟩,
   ⟨['N', 'o', 't', 'C', 'o', 'n', 'g', 'r', 'u', 'e', 'n', 't', ';'], ['\u2262']⟩,
   ⟨['N', 'o', 't', 'C', 'u', 'p', 'C', 'a', 'p', ';'], ['\u226D']⟩,
   ⟨['N', 'o', 't', 'D', 'o', 'u', 'b', 'l', 'e', 'V', 'e', 'r', 't', 'i', 'c', 'a', 'l', 'B', 'a',
      'r', ';'], ['\u2226']⟩,
   ⟨['N', 'o', 't', 'E', 'l', 'e', 'm', 'e', 'n', 't', ';'], ['\u2209']⟩,
   ⟨['N', 'o', 't', 'E', 'q', 'u', 'a', 'l', ';'], ['\u2260']⟩,
   ⟨['N', 'o', 't', 'E', 'q', 'u', 'a', 'l', 'T', 'i', 'l', 'd', 'e', ';'], ['\u2242', '\u0338']⟩,
   ⟨['N', 'o', 't', 'E', 'x', 'i', 's', 't', 's', ';'], ['\u2204']⟩,
   ⟨['N', 'o', 't', 'G', 'r', 'e', 'a', 't', 'e', 'r', ';'], ['\u226F']⟩,
   ⟨['N', 'o', 't', 'G', 'r', 'e', 'a', 't', 'e', 'r', 'E', 'q', 'u', 'a', 'l', ';'], ['\u2271']⟩,
   ⟨['N', 'o', 't', 'G', 'r', 'e', 'a', 't', 'e', 'r', 'F', 'u', 'l', 'l', 'E', 'q', 'u', 'a', 'l',
      ';'], ['\u2267', '\u0338']⟩,
   ⟨['N', 'o', 't', 'G', 'r', 'e', 'a', 't', 'e', 'r', 'G', 'r', 'e', 'a', 't', 'e', 'r', ';'],
    ['\u226B', '\u0338']⟩,
   ⟨['N', 'o', 't', 'G', 'r', 'e', 'a', 't', 'e', 'r', 'L', 'e', 's', 's', ';'], ['\u2279']⟩,
   ⟨['N', 'o', 't', 'G', 'r', 'e', 'a', 't', 'e', 'r', 'S', 'l', 'a', 'n', 't', 'E', 'q', 'u', 'a',
      'l', ';'], ['\u2A7E', '\u0338']⟩,
   ⟨['N', 'o', 't', 'G', 'r', 'e', 'a', 't', 'e', 'r', 'T', 'i', 'l', 'd', 'e', ';'], ['\u2275']⟩,
   ⟨['N', 'o', 't', 'H', 'u', 'm', 'p', 'D', 'o', 'w', 'n', 'H', 'u', 'm', 'p', ';'],
    ['\u224E', '\u0338']⟩,
   ⟨['N', 'o', 't', 'H', 'u', 'm', 'p', 'E', 'q', 'u', 'a', 'l', ';'], ['\u224F', '\u0338']⟩,
   ⟨['N', 'o', 't', 'L', 'e', 'f', 't', 'T', 'r', 'i', 'a', 'n', 'g', 'l', 'e', ';'], ['\u22EA']⟩,
   ⟨['N', 'o', 't', 'L', 'e', 'f', 't', 'T', 'r', 'i', 'a', 'n', 'g', 'l', 'e', 'B', 'a', 'r', ';'],
    ['\u29CF', '\u0338']⟩,
   ⟨['N', 'o', 't', 'L', 'e', 'f', 't', 'T', 'r', 'i', 'a', 'n', 'g', 'l', 'e', 'E', 'q', 'u', 'a',
      'l', ';'], ['\u22EC']⟩,
   ⟨['N', 'o', 't', 'L', 'e', 's', 's', ';'], ['\u226E']⟩,
   ⟨['N', 'o', 't', 'L', 'e', 's', 's', 'E', 'q', 'u', 'a', 'l', ';'], ['\u2270']⟩,
   ⟨['N', 'o', 't', 'L', 'e', 's', 's', 'G', 'r', 'e', 'a', 't', 'e', 'r', ';'], ['\u2278']⟩,
   ⟨['N', 'o', 't', 'L', 'e', 's', 's', 'L', 'e', 's', 's', ';'], ['\u226A', '\u0338']⟩,
   ⟨['N', 'o', 't', 'L', 'e', 's', 's', 'S', 'l', 'a', 'n', 't', 'E', 'q', 'u', 'a', 'l', ';'],
    ['\u2A7D', '\u0338']⟩,
   ⟨['N', 'o', 't', 'L', 'e', 's', 's', 'T', 'i', 'l', 'd', 'e', ';'], ['\u2274']⟩,
   ⟨['N', 'o', 't', 'N', 'e', 's', 't', 'e', 'd', 'G', 'r', 'e', 'a', 't', 'e', 'r', 'G', 'r', 'e',
      'a', 't', 'e', 'r', ';'], ['\u2AA2', '\u0338']⟩,
   ⟨['N', 'o', 't', 'N', 'e', 's', 't', 'e', 'd', 'L', 'e', 's', 's', 'L', 'e', 's', 's', ';'],
    ['\u2AA1', '\u0338']⟩,
   ⟨['N', 'o', 't', 'P', 'r', 'e', 'c', 'e', 'd', 'e', 's', ';'], ['\u2280']⟩,
   ⟨['N', 'o', 't', 'P', 'r', 'e', 'c', 'e', 'd', 'e', 's', 'E', 'q', 'u', 'a', 'l', ';'],
    ['\u2AAF', '\u0338']⟩,
   ⟨['N', 'o', 't', 'P', 'r', 'e', 'c', 'e', 'd', 'e', 's', 'S', 'l', 'a', 'n', 't', 'E', 'q', 'u',
      'a', 'l', ';'], ['\u22E0']⟩,
   ⟨['N', 'o', 't', 'R', 'e', 'v', 'e', 'r', 's', 'e', 'E', 'l', 'e', 'm', 'e', 'n', 't', ';'],
    ['\u220C']⟩,
   ⟨['N', 'o', 't', 'R', 'i', 'g', 'h', 't', 'T', 'r', 'i', 'a', 'n', 'g', 'l', 'e', ';'],
    ['\u22EB']⟩,
   ⟨['N', 'o', 't', 'R', 'i', 'g', 'h', 't', 'T', 'r', 'i', 'a', 'n', 'g', 'l', 'e', 'B', 'a', 'r',
      ';'], ['\u29D0', '\u0338']⟩,
   ⟨['N', 'o', 't', 'R', 'i', 'g', 'h', 't', 'T', 'r', 'i', 'a', 'n', 'g', 'l', 'e', 'E', 'q', 'u',
      'a', 'l', ';'], ['\u22ED']⟩,
   ⟨['N', 'o', 't', 'S', 'q', 'u', 'a', 'r', 'e', 'S', 'u', 'b', 's', 'e', 't', ';'],
    ['\u228F', '\u0338']⟩,
   ⟨['N', 'o', 't', 'S', 'q', 'u', 'a', 'r', 'e', 'S', 'u', 'b', 's', 'e', 't', 'E', 'q', 'u', 'a',
      'l', ';'], ['\u22E2']⟩,
   ⟨['N', 'o', 't', 'S', 'q', 'u', 'a', 'r', 'e', 'S', 'u', 'p', 'e', 'r', 's', 'e', 't', ';'],
    ['\u2290', '\u0338']⟩,
   ⟨['N', 'o', 't', 'S', 'q', 'u', 'a', 'r', 'e', 'S', 'u', 'p', 'e', 'r', 's', 'e', 't', 'E', 'q',
      'u', 'a', 'l', ';'], ['\u22E3']⟩,
   ⟨['N', 'o', 't', 'S', 'u', 'b', 's', 'e', 't', ';'], ['\u2282', '\u20D2']⟩,
   ⟨['N', 'o', 't', 'S', 'u', 'b', 's', 'e', 't', 'E', 'q', 'u', 'a', 'l', ';'], ['\u2288']⟩,
   ⟨['N', 'o', 't', 'S', 'u', 'c', 'c', 'e', 'e', 'd', 's', ';'], ['\u2281']⟩,
   ⟨['N', 'o', 't', 'S', 'u', 'c', 'c', 'e', 'e', 'd', 's', 'E', 'q', 'u', 'a', 'l', ';'],
    ['\u2AB0', '\u0338']⟩,
   ⟨['N', 'o', 't', 'S', 'u', 'c', 'c', 'e', 'e', 'd', 's', 'S', 'l', 'a', 'n', 't', 'E', 'q', 'u',
      'a', 'l', ';'], ['\u22E1']⟩,
   ⟨['N', 'o', 't', 'S', 'u', 'c', 'c', 'e', 'e', 'd', 's', 'T', 'i', 'l', 'd', 'e', ';'],
    ['\u227F', '\u0338']⟩,
   ⟨['N', 'o', 't', 'S', 'u', 'p', 'e', 'r', 's', 'e', 't', ';'], ['\u2283', '\u20D2']⟩,
   ⟨['N', 'o', 't', 'S', 'u', 'p', 'e', 'r', 's', 'e', 't', 'E', 'q', 'u', 'a', 'l', ';'],
    ['\u2289']⟩,
   ⟨['N', 'o', 't', 'T', 'i', 'l', 'd', 'e', ';'], ['\u2241']⟩,
   ⟨['N', 'o', 't', 'T', 'i', 'l', 'd', 'e', 'E', 'q', 'u', 'a', 'l', ';'], ['\u2244']⟩,
   ⟨['N', 'o', 't', 'T', 'i', 'l', 'd', 'e', 'F', 'u', 'l', 'l', 'E', 'q', 'u', 'a', 'l', ';'],
    ['\u2247']⟩,
   ⟨['N', 'o', 't', 'T', 'i', 'l', 'd', 'e', 'T', 'i', 'l', 'd', 'e', ';'], ['\u2249']⟩,
   ⟨['N', 'o', 't', 'V', 'e', 'r', 't', 'i', 'c', 'a', 'l', 'B', 'a', 'r', ';'], ['\u2224']⟩,
   ⟨['N', 's', 'c', 'r', ';'], ['𝒩']⟩,
   ⟨['N', 't', 'i', 'l', 'd', 'e'], ['\u00D1']⟩,
   ⟨['N', 't', 'i', 'l', 'd', 'e', ';'], ['\u00D1']⟩,
   ⟨['N', 'u', ';'], ['\u039D']⟩]

def upperO : List Entry :=
  [⟨['O', 'E', 'l', 'i', 'g', ';'], ['\u0152']⟩,
   ⟨['O', 'a', 'c', 'u', 't', 'e'], ['\u00D3']⟩,
   ⟨['O', 'a', 'c', 'u', 't', 'e', ';'], ['\u00D3']⟩,
   ⟨['O', 'c', 'i', 'r', 'c'], ['\u00D4']⟩,
   ⟨['O', 'c', 'i', 'r', 'c', ';'], ['\u00D4']⟩,
   ⟨['O', 'c', 'y', ';'], ['\u041E']⟩,
   ⟨['O', 'd', 'b', 'l', 'a', 'c', ';'], ['\u0150']⟩,
   ⟨['O', 'f', 'r', ';'], ['𝔒']⟩,
   ⟨['O', 'g', 'r', 'a', 'v', 'e'], ['\u00D2']⟩,
   ⟨['O', 'g', 'r', 'a', 'v', 'e', ';'], ['\u00D2']⟩,
   ⟨['O', 'm', 'a', 'c', 'r', ';'], ['\u014C']⟩,
   ⟨['O', 'm', 'e', 'g', 'a', ';'], ['\u03A9']⟩,
   ⟨['O', 'm', 'i', 'c', 'r', 'o', 'n', ';'], ['\u039F']⟩,
   ⟨['O', 'o', 'p', 'f', ';'], ['𝕆']⟩,
   ⟨['O', 'p', 'e', 'n', 'C', 'u', 'r', 'l', 'y', 'D', 'o', 'u', 'b', 'l', 'e', 'Q', 'u', 'o', 't',
      'e', ';'], ['\u201C']⟩,
   ⟨['O', 'p', 'e', 'n', 'C', 'u', 'r', 'l', 'y', 'Q', 'u', 'o', 't', 'e', ';'], ['\u2018']⟩,
   ⟨['O', 'r', ';'], ['\u2A54']⟩,
   ⟨['O', 's', 'c', 'r', ';'], ['𝒪']⟩,
   ⟨['O', 's', 'l', 'a', 's', 'h'], ['\u00D8']⟩,
   ⟨['O', 's', 'l', 'a', 's', 'h', ';'], ['\u00D8']⟩,
   ⟨['O', 't', 'i', 'l', 'd', 'e'], ['\u00D5']⟩,
   ⟨['O', 't', 'i', 'l', 'd', 'e', ';'], ['\u00D5']⟩,
   ⟨['O', 't', 'i', 'm', 'e', 's', ';'], ['\u2A37']⟩,
   ⟨['O', 'u', 'm', 'l'], ['\u00D6']⟩,
   ⟨['O', 'u', 'm', 'l', ';'], ['\u00D6']⟩,
   ⟨['O', 'v', 'e', 'r', 'B', 'a', 'r', ';'], ['\u203E']⟩,
   ⟨['O', 'v', 'e', 'r', 'B', 'r', 'a', 'c', 'e', ';'], ['\u23DE']⟩,
   ⟨['O', 'v', 'e', 'r', 'B', 'r', 'a', 'c', 'k', 'e', 't', ';'], ['\u23B4']⟩,
   ⟨['O', 'v', 'e', 'r', 'P', 'a', 'r', 'e', 'n', 't', 'h', 'e', 's', 'i', 's', ';'], ['\u23DC']⟩]

def upperP : List Entry :=
  [⟨['P', 'a', 'r', 't', 'i', 'a', 'l', 'D', ';'], ['\u2202']⟩,
   ⟨['P', 'c', 'y', ';'], ['\u041F']⟩,
   ⟨['P', 'f', 'r', ';'], ['𝔓']⟩,
   ⟨['P', 'h', 'i', ';'], ['\u03A6']⟩,
   ⟨['P', 'i', ';'], ['\u03A0']⟩,
   ⟨['P', 'l', 'u', 's', 'M', 'i', 'n', 'u', 's', ';'], ['\u00B1']⟩,
   ⟨['P', 'o', 'i', 'n', 'c', 'a', 'r', 'e', 'p', 'l', 'a', 'n', 'e', ';'], ['\u210C']⟩,
   ⟨['P', 'o', 'p', 'f', ';'], ['\u2119']⟩,
   ⟨['P', 'r', ';'], ['\u2ABB']⟩,
   ⟨['P', 'r', 'e', 'c', 'e', 'd', 'e', 's', ';'], ['\u227A']⟩,
   ⟨['P', 'r', 'e', 'c', 'e', 'd', 'e', 's', 'E', 'q', 'u', 'a', 'l', ';'], ['\u2AAF']⟩,
   ⟨['P', 'r', 'e', 'c', 'e', 'd', 'e', 's', 'S', 'l', 'a', 'n', 't', 'E', 'q', 'u', 'a', 'l', ';'],
    ['\u227C']⟩,
   ⟨['P', 'r', 'e', 'c', 'e', 'd', 'e', 's', 'T', 'i', 'l', 'd', 'e', ';'], ['\u227E']⟩,
   ⟨['P', 'r', 'i', 'm', 'e', ';'], ['\u2033']⟩,
   ⟨['P', 'r', 'o', 'd', 'u', 'c', 't', ';'], ['\u220F']⟩,
   ⟨['P', 'r', 'o', 'p', 'o', 'r', 't', 'i', 'o', 'n', ';'], ['\u2237']⟩,
   ⟨['P', 'r', 'o', 'p', 'o', 'r', 't', 'i', 'o', 'n', 'a', 'l', ';'], ['\u221D']⟩,
   ⟨['P', 's', 'c', 'r', ';'], ['𝒫']⟩,
   ⟨['P', 's', 'i', ';'], ['\u03A8']⟩]

def upperQ : List Entry :=
  [⟨['Q', 'U', 'O', 'T'], ['\x22']⟩,
   ⟨['Q', 'U', 'O', 'T', ';'], ['\x22']⟩,
   ⟨['Q', 'f', 'r', ';'], ['𝔔']⟩,
   ⟨['Q', 'o', 'p', 'f', ';'], ['\u211A']⟩,
   ⟨['Q', 's', 'c', 'r', ';'], ['𝒬']⟩]

def upperR : List Entry :=
  [⟨['R', 'B', 'a', 'r', 'r', ';'], ['\u2910']⟩,
   ⟨['R', 'E', 'G'], ['\u00AE']⟩,
   ⟨['R', 'E', 'G', ';'], ['\u00AE']⟩,
   ⟨['R', 'a', 'c', 'u', 't', 'e', ';'], ['\u0154']⟩,
   ⟨['R', 'a', 'n', 'g', ';'], ['\u27EB']⟩,
   ⟨['R', 'a', 'r', 'r', ';'], ['\u21A0']⟩,
   ⟨['R', 'a', 'r', 'r', 't', 'l', ';'], ['\u2916']⟩,
   ⟨['R', 'c', 'a', 'r', 'o', 'n', ';'], ['\u0158']⟩,
   ⟨['R', 'c', 'e', 'd', 'i', 'l', ';'], ['\u0156']⟩,
   ⟨['R', 'c', 'y', ';'], ['\u0420']⟩,
   ⟨['R', 'e', ';'], ['\u211C']⟩,
   ⟨['R', 'e', 'v', 'e', 'r', 's', 'e', 'E', 'l', 'e', 'm', 'e', 'n', 't', ';'], ['\u220B']⟩,
   ⟨['R', 'e', 'v', 'e', 'r', 's', 'e', 'E', 'q', 'u', 'i', 'l', 'i', 'b', 'r', 'i', 'u', 'm', ';'],
    ['\u21CB']⟩,
   ⟨['R', 'e', 'v', 'e', 'r', 's', 'e', 'U', 'p', 'E', 'q', 'u', 'i', 'l', 'i', 'b', 'r', 'i', 'u',
      'm', ';'], ['\u296F']⟩,
   ⟨['R', 'f', 'r', ';'], ['\u211C']⟩,
   ⟨['R', 'h', 'o', ';'], ['\u03A1']⟩,
   ⟨['R', 'i', 'g', 'h', 't', 'A', 'n', 'g', 'l', 'e', 'B', 'r', 'a', 'c', 'k', 'e', 't', ';'],
    ['\u27E9']⟩,
   ⟨['R', 'i', 'g', 'h', 't', 'A', 'r', 'r', 'o', 'w', ';'], ['\u2192']⟩,
   ⟨['R', 'i', 'g', 'h', 't', 'A', 'r', 'r', 'o', 'w', 'B', 'a', 'r', ';'], ['\u21E5']⟩,
   ⟨['R', 'i', 'g', 'h', 't', 'A', 'r', 'r', 'o', 'w', 'L', 'e', 'f', 't', 'A', 'r', 'r', 'o', 'w',
      ';'], ['\u21C4']⟩,
   ⟨['R', 'i', 'g', 'h', 't', 'C', 'e', 'i', 'l', 'i', 'n', 'g', ';'], ['\u2309']⟩,
   ⟨['R', 'i', 'g', 'h', 't', 'D', 'o', 'u', 'b', 'l', 'e', 'B', 'r', 'a', 'c', 'k', 'e', 't', ';'],
    ['\u27E7']⟩,
   ⟨['R', 'i', 'g', 'h', 't', 'D', 'o', 'w', 'n', 'T', 'e', 'e', 'V', 'e', 'c', 't', 'o', 'r', ';'],
    ['\u295D']⟩,
   ⟨['R', 'i', 'g', 'h', 't', 'D', 'o', 'w', 'n', 'V', 'e', 'c', 't', 'o', 'r', ';'], ['\u21C2']⟩,
   ⟨['R', 'i', 'g', 'h', 't', 'D', 'o', 'w', 'n', 'V', 'e', 'c', 't', 'o', 'r', 'B', 'a', 'r', ';'],
    ['\u2955']⟩,
   ⟨['R', 'i', 'g', 'h', 't', 'F', 'l', 'o', 'o', 'r', ';'], ['\u230B']⟩,
   ⟨['R', 'i', 'g', 'h', 't', 'T', 'e', 'e', ';'], ['\u22A2']⟩,
   ⟨['R', 'i', 'g', 'h', 't', 'T', 'e', 'e', 'A', 'r', 'r', 'o', 'w', ';'], ['\u21A6']⟩,
   ⟨['R', 'i', 'g', 'h', 't', 'T', 'e', 'e', 'V', 'e', 'c', 't', 'o', 'r', ';'], ['\u295B']⟩,
   ⟨['R', 'i', 'g', 'h', 't', 'T', 'r', 'i', 'a', 'n', 'g', 'l', 'e', ';'], ['\u22B3']⟩,
   ⟨['R', 'i', 'g', 'h', 't', 'T', 'r', 'i', 'a', 'n', 'g', 'l', 'e', 'B', 'a', 'r', ';'],
    ['\u29D0']⟩,
   ⟨['R', 'i', 'g', 'h', 't', 'T', 'r', 'i', 'a', 'n', 'g', 'l', 'e', 'E', 'q', 'u', 'a', 'l', ';'],
    ['\u22B5']⟩,
   ⟨['R', 'i', 'g', 'h', 't', 'U', 'p', 'D', 'o', 'w', 'n', 'V', 'e', 'c', 't', 'o', 'r', ';'],
    ['\u294F']⟩,
   ⟨['R', 'i', 'g', 'h', 't', 'U', 'p', 'T', 'e', 'e', 'V', 'e', 'c', 't', 'o', 'r', ';'],
    ['\u295C']⟩,
   ⟨['R', 'i', 'g', 'h', 't', 'U', 'p', 'V', 'e', 'c', 't', 'o', 'r', ';'], ['\u21BE']⟩,
   ⟨['R', 'i', 'g', 'h', 't', 'U', 'p', 'V', 'e', 'c', 't', 'o', 'r', 'B', 'a', 'r', ';'],
    ['\u2954']⟩,
   ⟨['R', 'i', 'g', 'h', 't', 'V', 'e', 'c', 't', 'o', 'r', ';'], ['\u21C0']⟩,
   ⟨['R', 'i', 'g', 'h', 't', 'V', 'e', 'c', 't', 'o', 'r', 'B', 'a', 'r', ';'], ['\u2953']⟩,
   ⟨['R', 'i', 'g', 'h', 't', 'a', 'r', 'r', 'o', 'w', ';'], ['\u21D2']⟩,
   ⟨['R', 'o', 'p', 'f', ';'], ['\u211D']⟩,
   ⟨['R', 'o', 'u', 'n', 'd', 'I', 'm', 'p', 'l', 'i', 'e', 's', ';'], ['\u2970']⟩,
   ⟨['R', 'r', 'i', 'g', 'h', 't', 'a', 'r', 'r', 'o', 'w', ';'], ['\u21DB']⟩,
   ⟨['R', 's', 'c', 'r', ';'], ['\u211B']⟩,
   ⟨['R', 's', 'h', ';'], ['\u21B1']⟩,
   ⟨['R', 'u', 'l', 'e', 'D', 'e', 'l', 'a', 'y', 'e', 'd', ';'], ['\u29F4']⟩]

def upperS : List Entry :=
  [⟨['S', 'H', 'C', 'H', 'c', 'y', ';'], ['\u0429']⟩,
   ⟨['S', 'H', 'c', 'y', ';'], ['\u0428']⟩,
   ⟨['S', 'O', 'F', 'T', 'c', 'y', ';'], ['\u042C']⟩,
   ⟨['S', 'a', 'c', 'u', 't', 'e', ';'], ['\u015A']⟩,
   ⟨['S', 'c', ';'], ['\u2ABC']⟩,
   ⟨['S', 'c', 'a', 'r', 'o', 'n', ';'], ['\u0160']⟩,
   ⟨['S', 'c', 'e', 'd', 'i', 'l', ';'], ['\u015E']⟩,
   ⟨['S', 'c', 'i', 'r', 'c', ';'], ['\u015C']⟩,
   ⟨['S', 'c', 'y', ';'], ['\u0421']⟩,
   ⟨['S', 'f', 'r', ';'], ['𝔖']⟩,
   ⟨['S', 'h', 'o', 'r', 't', 'D', 'o', 'w', 'n', 'A', 'r', 'r', 'o', 'w', ';'], ['\u2193']⟩,
   ⟨['S', 'h', 'o', 'r', 't', 'L', 'e', 'f', 't', 'A', 'r', 'r', 'o', 'w', ';'], ['\u2190']⟩,
   ⟨['S', 'h', 'o', 'r', 't', 'R', 'i', 'g', 'h', 't', 'A', 'r', 'r', 'o', 'w', ';'], ['\u2192']⟩,
   ⟨['S', 'h', 'o', 'r', 't', 'U', 'p', 'A', 'r', 'r', 'o', 'w', ';'], ['\u2191']⟩,
   ⟨['S', 'i', 'g', 'm', 'a', ';'], ['\u03A3']⟩,
   ⟨['S', 'm', 'a', 'l', 'l', 'C', 'i', 'r', 'c', 'l', 'e', ';'], ['\u2218']⟩,
   ⟨['S', 'o', 'p', 'f', ';'], ['𝕊']⟩,
   ⟨['S', 'q', 'r', 't', ';'], ['\u221A']⟩,
   ⟨['S', 'q', 'u', 'a', 'r', 'e', ';'], ['\u25A1']⟩,
   ⟨['S', 'q', 'u', 'a', 'r', 'e', 'I', 'n', 't', 'e', 'r', 's', 'e', 'c', 't', 'i', 'o', 'n', ';'],
    ['\u2293']⟩,
   ⟨['S', 'q', 'u', 'a', 'r', 'e', 'S', 'u', 'b', 's', 'e', 't', ';'], ['\u228F']⟩,
   ⟨['S', 'q', 'u', 'a', 'r', 'e', 'S', 'u', 'b', 's', 'e', 't', 'E', 'q', 'u', 'a', 'l', ';'],
    ['\u2291']⟩,
   ⟨['S', 'q', 'u', 'a', 'r', 'e', 'S', 'u', 'p', 'e', 'r', 's', 'e', 't', ';'], ['\u2290']⟩,
   ⟨['S', 'q', 'u', 'a', 'r', 'e', 'S', 'u', 'p', 'e', 'r', 's', 'e', 't', 'E', 'q', 'u', 'a', 'l',
      ';'], ['\u2292']⟩,
   ⟨['S', 'q', 'u', 'a', 'r', 'e', 'U', 'n', 'i', 'o', 'n', ';'], ['\u2294']⟩,
   ⟨['S', 's', 'c', 'r', ';'], ['𝒮']⟩,
   ⟨['S', 't', 'a', 'r', ';'], ['\u22C6']⟩,
   ⟨['S', 'u', 'b', ';'], ['\u22D0']⟩,
   ⟨['S', 'u', 'b', 's', 'e', 't', ';'], ['\u22D0']⟩,
   ⟨['S', 'u', 'b', 's', 'e', 't', 'E', 'q', 'u', 'a', 'l', ';'], ['\u2286']⟩,
   ⟨['S', 'u', 'c', 'c', 'e', 'e', 'd', 's', ';'], ['\u227B']⟩,
   ⟨['S', 'u', 'c', 'c', 'e', 'e', 'd', 's', 'E', 'q', 'u', 'a', 'l', ';'], ['\u2AB0']⟩,
   ⟨['S', 'u', 'c', 'c', 'e', 'e', 'd', 's', 'S', 'l', 'a', 'n', 't', 'E', 'q', 'u', 'a', 'l', ';'],
    ['\u227D']⟩,
   ⟨['S', 'u', 'c', 'c', 'e', 'e', 'd', 's', 'T', 'i', 'l', 'd', 'e', ';'], ['\u227F']⟩,
   ⟨['S', 'u', 'c', 'h', 'T', 'h', 'a', 't', ';'], ['\u220B']⟩,
   ⟨['S', 'u', 'm', ';'], ['\u2211']⟩,
   ⟨['S', 'u', 'p', ';'], ['\u22D1']⟩,
   ⟨['S', 'u', 'p', 'e', 'r', 's', 'e', 't', ';'], ['\u2283']⟩,
   ⟨['S', 'u', 'p', 'e', 'r', 's', 'e', 't', 'E', 'q', 'u', 'a', 'l', ';'], ['\u2287']⟩,
   ⟨['S', 'u', 'p', 's', 'e', 't', ';'], ['\u22D1']⟩]

def upperT : List Entry :=
  [⟨['T', 'H', 'O', 'R', 'N'], ['\u00DE']⟩,
   ⟨['T', 'H', 'O', 'R', 'N', ';'], ['\u00DE']⟩,
   ⟨['T', 'R', 'A', 'D', 'E', ';'], ['\u2122']⟩,
   ⟨['T', 'S', 'H', 'c', 'y', ';'], ['\u040B']⟩,
   ⟨['T', 'S', 'c', 'y', ';'], ['\u0426']⟩,
   ⟨['T', 'a', 'b', ';'], ['\t']⟩,
   ⟨['T', 'a', 'u', ';'], ['\u03A4']⟩,
   ⟨['T', 'c', 'a', 'r', 'o', 'n', ';'], ['\u0164']⟩,
   ⟨['T', 'c', 'e', 'd', 'i', 'l', ';'], ['\u0162']⟩,
   ⟨['T', 'c', 'y', ';'], ['\u0422']⟩,
   ⟨['T', 'f', 'r', ';'], ['𝔗']⟩,
   ⟨['T', 'h', 'e', 'r', 'e', 'f', 'o', 'r', 'e', ';'], ['\u2234']⟩,
   ⟨['T', 'h', 'e', 't', 'a', ';'], ['\u0398']⟩,
   ⟨['T', 'h', 'i', 'c', 'k', 'S', 'p', 'a', 'c', 'e', ';'], ['\u205F', '\u200A']⟩,
   ⟨['T', 'h', 'i', 'n', 'S', 'p', 'a', 'c', 'e', ';'], ['\u2009']⟩,
   ⟨['T', 'i', 'l', 'd', 'e', ';'], ['\u223C']⟩,
   ⟨['T', 'i', 'l', 'd', 'e', 'E', 'q', 'u', 'a', 'l', ';'], ['\u2243']⟩,
   ⟨['T', 'i', 'l', 'd', 'e', 'F', 'u', 'l', 'l', 'E', 'q', 'u', 'a', 'l', ';'], ['\u2245']⟩,
   ⟨['T', 'i', 'l', 'd', 'e', 'T', 'i', 'l', 'd', 'e', ';'], ['\u2248']⟩,
   ⟨['T', 'o', 'p', 'f', ';'], ['𝕋']⟩,
   ⟨['T', 'r', 'i', 'p', 'l', 'e', 'D', 'o', 't', ';'], ['\u20DB']⟩,
   ⟨['T', 's', 'c', 'r', ';'], ['𝒯']⟩,
   ⟨['T', 's', 't', 'r', 'o', 'k', ';'], ['\u0166']⟩]

def upperU : List Entry :=
  [⟨['U', 'a', 'c', 'u', 't', 'e'], ['\u00DA']⟩,
   ⟨['U', 'a', 'c', 'u', 't', 'e', ';'], ['\u00DA']⟩,
   ⟨['U', 'a', 'r', 'r', ';'], ['\u219F']⟩,
   ⟨['U', 'a', 'r', 'r', 'o', 'c', 'i', 'r', ';'], ['\u2949']⟩,
   ⟨['U', 'b', 'r', 'c', 'y', ';'], ['\u040E']⟩,
   ⟨['U', 'b', 'r', 'e', 'v', 'e', ';'], ['\u016C']⟩,
   ⟨['U', 'c', 'i', 'r', 'c'], ['\u00DB']⟩,
   ⟨['U', 'c', 'i', 'r', 'c', ';'], ['\u00DB']⟩,
   ⟨['U', 'c', 'y', ';'], ['\u0423']⟩,
   ⟨['U', 'd', 'b', 'l', 'a', 'c', ';'], ['\u0170']⟩,
   ⟨['U', 'f', 'r', ';'], ['𝔘']⟩,
   ⟨['U', 'g', 'r', 'a', 'v', 'e'], ['\u00D9']⟩,
   ⟨['U', 'g', 'r', 'a', 'v', 'e', ';'], ['\u00D9']⟩,
   ⟨['U', 'm', 'a', 'c', 'r', ';'], ['\u016A']⟩,
   ⟨['U', 'n', 'd', 'e', 'r', 'B', 'a', 'r', ';'], ['_']⟩,
   ⟨['U', 'n', 'd', 'e', 'r', 'B', 'r', 'a', 'c', 'e', ';'], ['\u23DF']⟩,
   ⟨['U', 'n', 'd', 'e', 'r', 'B', 'r', 'a', 'c', 'k', 'e', 't', ';'], ['\u23B5']⟩,
   ⟨['U', 'n', 'd', 'e', 'r', 'P', 'a', 'r', 'e', 'n', 't', 'h', 'e', 's', 'i', 's', ';'],
    ['\u23DD']⟩,
   ⟨['U', 'n', 'i', 'o', 'n', ';'], ['\u22C3']⟩,
   ⟨['U', 'n', 'i', 'o', 'n', 'P', 'l', 'u', 's', ';'], ['\u228E']⟩,
   ⟨['U', 'o', 'g', 'o', 'n', ';'], ['\u0172']⟩,
   ⟨['U', 'o', 'p', 'f', ';'], ['𝕌']⟩,
   ⟨['U', 'p', 'A', 'r', 'r', 'o', 'w', ';'], ['\u2191']⟩,
   ⟨['U', 'p', 'A', 'r', 'r', 'o', 'w', 'B', 'a', 'r', ';'], ['\u2912']⟩,
   ⟨['U', 'p', 'A', 'r', 'r', 'o', 'w', 'D', 'o', 'w', 'n', 'A', 'r', 'r', 'o', 'w', ';'],
    ['\u21C5']⟩,
   ⟨['U', 'p', 'D', 'o', 'w', 'n', 'A', 'r', 'r', 'o', 'w', ';'], ['\u2195']⟩,
   ⟨['U', 'p', 'E', 'q', 'u', 'i', 'l', 'i', 'b', 'r', 'i', 'u', 'm', ';'], ['\u296E']⟩,
   ⟨['U', 'p', 'T', 'e', 'e', ';'], ['\u22A5']⟩,
   ⟨['U', 'p', 'T', 'e', 'e', 'A', 'r', 'r', 'o', 'w', ';'], ['\u21A5']⟩,
   ⟨['U', 'p', 'a', 'r', 'r', 'o', 'w', ';'], ['\u21D1']⟩,
   ⟨['U', 'p', 'd', 'o', 'w', 'n', 'a', 'r', 'r', 'o', 'w', ';'], ['\u21D5']⟩,
   ⟨['U', 'p', 'p', 'e', 'r', 'L', 'e', 'f', 't', 'A', 'r', 'r', 'o', 'w', ';'], ['\u2196']⟩,
   ⟨['U', 'p', 'p', 'e', 'r', 'R', 'i', 'g', 'h', 't', 'A', 'r', 'r', 'o', 'w', ';'], ['\u2197']⟩,
   ⟨['U', 'p', 's', 'i', ';'], ['\u03D2']⟩,
   ⟨['U', 'p', 's', 'i', 'l', 'o', 'n', ';'], ['\u03A5']⟩,
   ⟨['U', 'r', 'i', 'n', 'g', ';'], ['\u016E']⟩,
   ⟨['U', 's', 'c', 'r', ';'], ['𝒰']⟩,
   ⟨['U', 't', 'i', 'l', 'd', 'e', ';'], ['\u0168']⟩,
   ⟨['U', 'u', 'm', 'l'], ['\u00DC']⟩,
   ⟨['U', 'u', 'm', 'l', ';'], ['\u00DC']⟩]

def upperV : List Entry :=
  [⟨['V', 'D', 'a', 's', 'h', ';'], ['\u22AB']⟩,
   ⟨['V', 'b', 'a', 'r', ';'], ['\u2AEB']⟩,
   ⟨['V', 'c', 'y', ';'], ['\u0412']⟩,
   ⟨['V', 'd', 'a', 's', 'h', ';'], ['\u22A9']⟩,
   ⟨['V', 'd', 'a', 's', 'h', 'l', ';'], ['\u2AE6']⟩,
   ⟨['V', 'e', 'e', ';'], ['\u22C1']⟩,
   ⟨['V', 'e', 'r', 'b', 'a', 'r', ';'], ['\u2016']⟩,
   ⟨['V', 'e', 'r', 't', ';'], ['\u2016']⟩,
   ⟨['V', 'e', 'r', 't', 'i', 'c', 'a', 'l', 'B', 'a', 'r', ';'], ['\u2223']⟩,
   ⟨['V', 'e', 'r', 't', 'i', 'c', 'a', 'l', 'L', 'i', 'n', 'e', ';'], ['|']⟩,
   ⟨['V', 'e', 'r', 't', 'i', 'c', 'a', 'l', 'S', 'e', 'p', 'a', 'r', 'a', 't', 'o', 'r', ';'],
    ['\u2758']⟩,
   ⟨['V', 'e', 'r', 't', 'i', 'c', 'a', 'l', 'T', 'i', 'l', 'd', 'e', ';'], ['\u2240']⟩,
   ⟨['V', 'e', 'r', 'y', 'T', 'h', 'i', 'n', 'S', 'p', 'a', 'c', 'e', ';'], ['\u200A']⟩,
   ⟨['V', 'f', 'r', ';'], ['𝔙']⟩,
   ⟨['V', 'o', 'p', 'f', ';'], ['𝕍']⟩,
   ⟨['V', 's', 'c', 'r', ';'], ['𝒱']⟩,
   ⟨['V', 'v', 'd', 'a', 's', 'h', ';'], ['\u22AA']⟩]

def upperW : List Entry :=
  [⟨['W', 'c', 'i', 'r', 'c', ';'], ['\u0174']⟩,
   ⟨['W', 'e', 'd', 'g', 'e', ';'], ['\u22C0']⟩,
   ⟨['W', 'f', 'r', ';'], ['𝔚']⟩,
   ⟨['W', 'o', 'p', 'f', ';'], ['𝕎']⟩,
   ⟨['W', 's', 'c', 'r', ';'], ['𝒲']⟩]

def upperX : List Entry :=
  [⟨['X', 'f', 'r', ';'], ['𝔛']⟩,
   ⟨['X', 'i', ';'], ['\u039E']⟩,
   ⟨['X', 'o', 'p', 'f', ';'], ['𝕏']⟩,
   ⟨['X', 's', 'c', 'r', ';'], ['𝒳']⟩]

def upperY : List Entry :=
  [⟨['Y', 'A', 'c', 'y', ';'], ['\u042F']⟩,
   ⟨['Y', 'I', 'c', 'y', ';'], ['\u0407']⟩,
   ⟨['Y', 'U', 'c', 'y', ';'], ['\u042E']⟩,
   ⟨['Y', 'a', 'c', 'u', 't', 'e'], ['\u00DD']⟩,
   ⟨['Y', 'a', 'c', 'u', 't', 'e', ';'], ['\u00DD']⟩,
   ⟨['Y', 'c', 'i', 'r', 'c', ';'], ['\u0176']⟩,
   ⟨['Y', 'c', 'y', ';'], ['\u042B']⟩,
   ⟨['Y', 'f', 'r', ';'], ['𝔜']⟩,
   ⟨['Y', 'o', 'p', 'f', ';'], ['𝕐']⟩,
   ⟨['Y', 's', 'c', 'r', ';'], ['𝒴']⟩,
   ⟨['Y', 'u', 'm', 'l', ';'], ['\u0178']⟩]

def upperZ : List Entry :=
  [⟨['Z', 'H', 'c', 'y', ';'], ['\u0416']⟩,
   ⟨['Z', 'a', 'c', 'u', 't', 'e', ';'], ['\u0179']⟩,
   ⟨['Z', 'c', 'a', 'r', 'o', 'n', ';'], ['\u017D']⟩,
   ⟨['Z', 'c', 'y', ';'], ['\u0417']⟩,
   ⟨['Z', 'd', 'o', 't', ';'], ['\u017B']⟩,
   ⟨['Z', 'e', 'r', 'o', 'W', 'i', 'd', 't', 'h', 'S', 'p', 'a', 'c', 'e', ';'], ['\u200B']⟩,
   ⟨['Z', 'e', 't', 'a', ';'], ['\u0396']⟩,
   ⟨['Z', 'f', 'r', ';'], ['\u2128']⟩,
   ⟨['Z', 'o', 'p', 'f', ';'], ['\u2124']⟩,
   ⟨['Z', 's', 'c', 'r', ';'], ['𝒵']⟩]

/-- The names that begin with a capital letter. -/
def capitals : List Entry :=
  upperA ++ upperB ++ upperC ++ upperD ++ upperE ++ upperF ++ upperG ++ upperH ++ upperI ++
    upperJ ++ upperK ++ upperL ++ upperM ++ upperN ++ upperO ++ upperP ++ upperQ ++ upperR ++
    upperS ++ upperT ++ upperU ++ upperV ++ upperW ++ upperX ++ upperY ++ upperZ

end Hypertext.Entity.Table
