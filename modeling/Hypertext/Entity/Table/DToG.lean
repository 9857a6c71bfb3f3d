import Hypertext.Entity.Entry

/-!
# Named character references that begin with `d` to `g`
-/

namespace Hypertext.Entity.Table

def lowerD : List Entry :=
  [⟨['d', 'A', 'r', 'r', ';'], ['\u21D3']⟩,
   ⟨['d', 'H', 'a', 'r', ';'], ['\u2965']⟩,
   ⟨['d', 'a', 'g', 'g', 'e', 'r', ';'], ['\u2020']⟩,
   ⟨['d', 'a', 'l', 'e', 't', 'h', ';'], ['\u2138']⟩,
   ⟨['d', 'a', 'r', 'r', ';'], ['\u2193']⟩,
   ⟨['d', 'a', 's', 'h', ';'], ['\u2010']⟩,
   ⟨['d', 'a', 's', 'h', 'v', ';'], ['\u22A3']⟩,
   ⟨['d', 'b', 'k', 'a', 'r', 'o', 'w', ';'], ['\u290F']⟩,
   ⟨['d', 'b', 'l', 'a', 'c', ';'], ['\u02DD']⟩,
   ⟨['d', 'c', 'a', 'r', 'o', 'n', ';'], ['\u010F']⟩,
   ⟨['d', 'c', 'y', ';'], ['\u0434']⟩,
   ⟨['d', 'd', ';'], ['\u2146']⟩,
   ⟨['d', 'd', 'a', 'g', 'g', 'e', 'r', ';'], ['\u2021']⟩,
   ⟨['d', 'd', 'a', 'r', 'r', ';'], ['\u21CA']⟩,
   ⟨['d', 'd', 'o', 't', 's', 'e', 'q', ';'], ['\u2A77']⟩,
   ⟨['d', 'e', 'g'], ['\u00B0']⟩,
   ⟨['d', 'e', 'g', ';'], ['\u00B0']⟩,
   ⟨['d', 'e', 'l', 't', 'a', ';'], ['\u03B4']⟩,
   ⟨['d', 'e', 'm', 'p', 't', 'y', 'v', ';'], ['\u29B1']⟩,
   ⟨['d', 'f', 'i', 's', 'h', 't', ';'], ['\u297F']⟩,
   ⟨['d', 'f', 'r', ';'], ['𝔡']⟩,
   ⟨['d', 'h', 'a', 'r', 'l', ';'], ['\u21C3']⟩,
   ⟨['d', 'h', 'a', 'r', 'r', ';'], ['\u21C2']⟩,
   ⟨['d', 'i', 'a', 'm', ';'], ['\u22C4']⟩,
   ⟨['d', 'i', 'a', 'm', 'o', 'n', 'd', ';'], ['\u22C4']⟩,
   ⟨['d', 'i', 'a', 'm', 'o', 'n', 'd', 's', 'u', 'i', 't', ';'], ['\u2666']⟩,
   ⟨['d', 'i', 'a', 'm', 's', ';'], ['\u2666']⟩,
   ⟨['d', 'i', 'e', ';'], ['\u00A8']⟩,
   ⟨['d', 'i', 'g', 'a', 'm', 'm', 'a', ';'], ['\u03DD']⟩,
   ⟨['d', 'i', 's', 'i', 'n', ';'], ['\u22F2']⟩,
   ⟨['d', 'i', 'v', ';'], ['\u00F7']⟩,
   ⟨['d', 'i', 'v', 'i', 'd', 'e'], ['\u00F7']⟩,
   ⟨['d', 'i', 'v', 'i', 'd', 'e', ';'], ['\u00F7']⟩,
   ⟨['d', 'i', 'v', 'i', 'd', 'e', 'o', 'n', 't', 'i', 'm', 'e', 's', ';'], ['\u22C7']⟩,
   ⟨['d', 'i', 'v', 'o', 'n', 'x', ';'], ['\u22C7']⟩,
   ⟨['d', 'j', 'c', 'y', ';'], ['\u0452']⟩,
   ⟨['d', 'l', 'c', 'o', 'r', 'n', ';'], ['\u231E']⟩,
   ⟨['d', 'l', 'c', 'r', 'o', 'p', ';'], ['\u230D']⟩,
   ⟨['d', 'o', 'l', 'l', 'a', 'r', ';'], ['$']⟩,
   ⟨['d', 'o', 'p', 'f', ';'], ['𝕕']⟩,
   ⟨['d', 'o', 't', ';'], ['\u02D9']⟩,
   ⟨['d', 'o', 't', 'e', 'q', ';'], ['\u2250']⟩,
   ⟨['d', 'o', 't', 'e', 'q', 'd', 'o', 't', ';'], ['\u2251']⟩,
   ⟨['d', 'o', 't', 'm', 'i', 'n', 'u', 's', ';'], ['\u2238']⟩,
   ⟨['d', 'o', 't', 'p', 'l', 'u', 's', ';'], ['\u2214']⟩,
   ⟨['d', 'o', 't', 's', 'q', 'u', 'a', 'r', 'e', ';'], ['\u22A1']⟩,
   ⟨['d', 'o', 'u', 'b', 'l', 'e', 'b', 'a', 'r', 'w', 'e', 'd', 'g', 'e', ';'], ['\u2306']⟩,
   ⟨['d', 'o', 'w', 'n', 'a', 'r', 'r', 'o', 'w', ';'], ['\u2193']⟩,
   ⟨['d', 'o', 'w', 'n', 'd', 'o', 'w', 'n', 'a', 'r', 'r', 'o', 'w', 's', ';'], ['\u21CA']⟩,
   ⟨['d', 'o', 'w', 'n', 'h', 'a', 'r', 'p', 'o', 'o', 'n', 'l', 'e', 'f', 't', ';'], ['\u21C3']⟩,
   ⟨['d', 'o', 'w', 'n', 'h', 'a', 'r', 'p', 'o', 'o', 'n', 'r', 'i', 'g', 'h', 't', ';'],
    ['\u21C2']⟩,
   ⟨['d', 'r', 'b', 'k', 'a', 'r', 'o', 'w', ';'], ['\u2910']⟩,
   ⟨['d', 'r', 'c', 'o', 'r', 'n', ';'], ['\u231F']⟩,
   ⟨['d', 'r', 'c', 'r', 'o', 'p', ';'], ['\u230C']⟩,
   ⟨['d', 's', 'c', 'r', ';'], ['𝒹']⟩,
   ⟨['d', 's', 'c', 'y', ';'], ['\u0455']⟩,
   ⟨['d', 's', 'o', 'l', ';'], ['\u29F6']⟩,
   ⟨['d', 's', 't', 'r', 'o', 'k', ';'], ['\u0111']⟩,
   ⟨['d', 't', 'd', 'o', 't', ';'], ['\u22F1']⟩,
   ⟨['d', 't', 'r', 'i', ';'], ['\u25BF']⟩,
   ⟨['d', 't', 'r', 'i', 'f', ';'], ['\u25BE']⟩,
   ⟨['d', 'u', 'a', 'r', 'r', ';'], ['\u21F5']⟩,
   ⟨['d', 'u', 'h', 'a', 'r', ';'], ['\u296F']⟩,
   ⟨['d', 'w', 'a', 'n', 'g', 'l', 'e', ';'], ['\u29A6']⟩,
   ⟨['d', 'z', 'c', 'y', ';'], ['\u045F']⟩,
   ⟨['d', 'z', 'i', 'g', 'r', 'a', 'r', 'r', ';'], ['\u27FF']⟩]

def lowerE : List Entry :=
  [⟨['e', 'D', 'D', 'o', 't', ';'], ['\u2A77']⟩,
   ⟨['e', 'D', 'o', 't', ';'], ['\u2251']⟩,
   ⟨['e', 'a', 'c', 'u', 't', 'e'], ['\u00E9']⟩,
   ⟨['e', 'a', 'c', 'u', 't', 'e', ';'], ['\u00E9']⟩,
   ⟨['e', 'a', 's', 't', 'e', 'r', ';'], ['\u2A6E']⟩,
   ⟨['e', 'c', 'a', 'r', 'o', 'n', ';'], ['\u011B']⟩,
   ⟨['e', 'c', 'i', 'r', ';'], ['\u2256']⟩,
   ⟨['e', 'c', 'i', 'r', 'c'], ['\u00EA']⟩,
   ⟨['e', 'c', 'i', 'r', 'c', ';'], ['\u00EA']⟩,
   ⟨['e', 'c', 'o', 'l', 'o', 'n', ';'], ['\u2255']⟩,
   ⟨['e', 'c', 'y', ';'], ['\u044D']⟩,
   ⟨['e', 'd', 'o', 't', ';'], ['\u0117']⟩,
   ⟨['e', 'e', ';'], ['\u2147']⟩,
   ⟨['e', 'f', 'D', 'o', 't', ';'], ['\u2252']⟩,
   ⟨['e', 'f', 'r', ';'], ['𝔢']⟩,
   ⟨['e', 'g', ';'], ['\u2A9A']⟩,
   ⟨['e', 'g', 'r', 'a', 'v', 'e'], ['\u00E8']⟩,
   ⟨['e', 'g', 'r', 'a', 'v', 'e', ';'], ['\u00E8']⟩,
   ⟨['e', 'g', 's', ';'], ['\u2A96']⟩,
   ⟨['e', 'g', 's', 'd', 'o', 't', ';'], ['\u2A98']⟩,
   ⟨['e', 'l', ';'], ['\u2A99']⟩,
   ⟨['e', 'l', 'i', 'n', 't', 'e', 'r', 's', ';'], ['\u23E7']⟩,
   ⟨['e', 'l', 'l', ';'], ['\u2113']⟩,
   ⟨['e', 'l', 's', ';'], ['\u2A95']⟩,
   ⟨['e', 'l', 's', 'd', 'o', 't', ';'], ['\u2A97']⟩,
   ⟨['e', 'm', 'a', 'c', 'r', ';'], ['\u0113']⟩,
   ⟨['e', 'm', 'p', 't', 'y', ';'], ['\u2205']⟩,
   ⟨['e', 'm', 'p', 't', 'y', 's', 'e', 't', ';'], ['\u2205']⟩,
   ⟨['e', 'm', 'p', 't', 'y', 'v', ';'], ['\u2205']⟩,
   ⟨['e', 'm', 's', 'p', '1', '3', ';'], ['\u2004']⟩,
   ⟨['e', 'm', 's', 'p', '1', '4', ';'], ['\u2005']⟩,
   ⟨['e', 'm', 's', 'p', ';'], ['\u2003']⟩,
   ⟨['e', 'n', 'g', ';'], ['\u014B']⟩,
   ⟨['e', 'n', 's', 'p', ';'], ['\u2002']⟩,
   ⟨['e', 'o', 'g', 'o', 'n', ';'], ['\u0119']⟩,
   ⟨['e', 'o', 'p', 'f', ';'], ['𝕖']⟩,
   ⟨['e', 'p', 'a', 'r', ';'], ['\u22D5']⟩,
   ⟨['e', 'p', 'a', 'r', 's', 'l', ';'], ['\u29E3']⟩,
   ⟨['e', 'p', 'l', 'u', 's', ';'], ['\u2A71']⟩,
   ⟨['e', 'p', 's', 'i', ';'], ['\u03B5']⟩,
   ⟨['e', 'p', 's', 'i', 'l', 'o', 'n', ';'], ['\u03B5']⟩,
   ⟨['e', 'p', 's', 'i', 'v', ';'], ['\u03F5']⟩,
   ⟨['e', 'q', 'c', 'i', 'r', 'c', ';'], ['\u2256']⟩,
   ⟨['e', 'q', 'c', 'o', 'l', 'o', 'n', ';'], ['\u2255']⟩,
   ⟨['e', 'q', 's', 'i', 'm', ';'], ['\u2242']⟩,
   ⟨['e', 'q', 's', 'l', 'a', 'n', 't', 'g', 't', 'r', ';'], ['\u2A96']⟩,
   ⟨['e', 'q', 's', 'l', 'a', 'n', 't', 'l', 'e', 's', 's', ';'], ['\u2A95']⟩,
   ⟨['e', 'q', 'u', 'a', 'l', 's', ';'], ['=']⟩,
   ⟨['e', 'q', 'u', 'e', 's', 't', ';'], ['\u225F']⟩,
   ⟨['e', 'q', 'u', 'i', 'v', ';'], ['\u2261']⟩,
   ⟨['e', 'q', 'u', 'i', 'v', 'D', 'D', ';'], ['\u2A78']⟩,
   ⟨['e', 'q', 'v', 'p', 'a', 'r', 's', 'l', ';'], ['\u29E5']⟩,
   ⟨['e', 'r', 'D', 'o', 't', ';'], ['\u2253']⟩,
   ⟨['e', 'r', 'a', 'r', 'r', ';'], ['\u2971']⟩,
   ⟨['e', 's', 'c', 'r', ';'], ['\u212F']⟩,
   ⟨['e', 's', 'd', 'o', 't', ';'], ['\u2250']⟩,
   ⟨['e', 's', 'i', 'm', ';'], ['\u2242']⟩,
   ⟨['e', 't', 'a', ';'], ['\u03B7']⟩,
   ⟨['e', 't', 'h'], ['\u00F0']⟩,
   ⟨['e', 't', 'h', ';'], ['\u00F0']⟩,
   ⟨['e', 'u', 'm', 'l'], ['\u00EB']⟩,
   ⟨['e', 'u', 'm', 'l', ';'], ['\u00EB']⟩,
   ⟨['e', 'u', 'r', 'o', ';'], ['\u20AC']⟩,
   ⟨['e', 'x', 'c', 'l', ';'], ['!']⟩,
   ⟨['e', 'x', 'i', 's', 't', ';'], ['\u2203']⟩,
   ⟨['e', 'x', 'p', 'e', 'c', 't', 'a', 't', 'i', 'o', 'n', ';'], ['\u2130']⟩,
   ⟨['e', 'x', 'p', 'o', 'n', 'e', 'n', 't', 'i', 'a', 'l', 'e', ';'], ['\u2147']⟩]

def lowerF : List Entry :=
  [⟨['f', 'a', 'l', 'l', 'i', 'n', 'g', 'd', 'o', 't', 's', 'e', 'q', ';'], ['\u2252']⟩,
   ⟨['f', 'c', 'y', ';'], ['\u0444']⟩,
   ⟨['f', 'e', 'm', 'a', 'l', 'e', ';'], ['\u2640']⟩,
   ⟨['f', 'f', 'i', 'l', 'i', 'g', ';'], ['\uFB03']⟩,
   ⟨['f', 'f', 'l', 'i', 'g', ';'], ['\uFB00']⟩,
   ⟨['f', 'f', 'l', 'l', 'i', 'g', ';'], ['\uFB04']⟩,
   ⟨['f', 'f', 'r', ';'], ['𝔣']⟩,
   ⟨['f', 'i', 'l', 'i', 'g', ';'], ['\uFB01']⟩,
   ⟨['f', 'j', 'l', 'i', 'g', ';'], ['f', 'j']⟩,
   ⟨['f', 'l', 'a', 't', ';'], ['\u266D']⟩,
   ⟨['f', 'l', 'l', 'i', 'g', ';'], ['\uFB02']⟩,
   ⟨['f', 'l', 't', 'n', 's', ';'], ['\u25B1']⟩,
   ⟨['f', 'n', 'o', 'f', ';'], ['\u0192']⟩,
   ⟨['f', 'o', 'p', 'f', ';'], ['𝕗']⟩,
   ⟨['f', 'o', 'r', 'a', 'l', 'l', ';'], ['\u2200']⟩,
   ⟨['f', 'o', 'r', 'k', ';'], ['\u22D4']⟩,
   ⟨['f', 'o', 'r', 'k', 'v', ';'], ['\u2AD9']⟩,
   ⟨['f', 'p', 'a', 'r', 't', 'i', 'n', 't', ';'], ['\u2A0D']⟩,
   ⟨['f', 'r', 'a', 'c', '1', '2'], ['\u00BD']⟩,
   ⟨['f', 'r', 'a', 'c', '1', '2', ';'], ['\u00BD']⟩,
   ⟨['f', 'r', 'a', 'c', '1', '3', ';'], ['\u2153']⟩,
   ⟨['f', 'r', 'a', 'c', '1', '4'], ['\u00BC']⟩,
   ⟨['f', 'r', 'a', 'c', '1', '4', ';'], ['\u00BC']⟩,
   ⟨['f', 'r', 'a', 'c', '1', '5', ';'], ['\u2155']⟩,
   ⟨['f', 'r', 'a', 'c', '1', '6', ';'], ['\u2159']⟩,
   ⟨['f', 'r', 'a', 'c', '1', '8', ';'], ['\u215B']⟩,
   ⟨['f', 'r', 'a', 'c', '2', '3', ';'], ['\u2154']⟩,
   ⟨['f', 'r', 'a', 'c', '2', '5', ';'], ['\u2156']⟩,
   ⟨['f', 'r', 'a', 'c', '3', '4'], ['\u00BE']⟩,
   ⟨['f', 'r', 'a', 'c', '3', '4', ';'], ['\u00BE']⟩,
   ⟨['f', 'r', 'a', 'c', '3', '5', ';'], ['\u2157']⟩,
   ⟨['f', 'r', 'a', 'c', '3', '8', ';'], ['\u215C']⟩,
   ⟨['f', 'r', 'a', 'c', '4', '5', ';'], ['\u2158']⟩,
   ⟨['f', 'r', 'a', 'c', '5', '6', ';'], ['\u215A']⟩,
   ⟨['f', 'r', 'a', 'c', '5', '8', ';'], ['\u215D']⟩,
   ⟨['f', 'r', 'a', 'c', '7', '8', ';'], ['\u215E']⟩,
   ⟨['f', 'r', 'a', 's', 'l', ';'], ['\u2044']⟩,
   ⟨['f', 'r', 'o', 'w', 'n', ';'], ['\u2322']⟩,
   ⟨['f', 's', 'c', 'r', ';'], ['𝒻']⟩]

def lowerG : List Entry :=
  [⟨['g', 'E', ';'], ['\u2267']⟩,
   ⟨['g', 'E', 'l', ';'], ['\u2A8C']⟩,
   ⟨['g', 'a', 'c', 'u', 't', 'e', ';'], ['\u01F5']⟩,
   ⟨['g', 'a', 'm', 'm', 'a', ';'], ['\u03B3']⟩,
   ⟨['g', 'a', 'm', 'm', 'a', 'd', ';'], ['\u03DD']⟩,
   ⟨['g', 'a', 'p', ';'], ['\u2A86']⟩,
   ⟨['g', 'b', 'r', 'e', 'v', 'e', ';'], ['\u011F']⟩,
   ⟨['g', 'c', 'i', 'r', 'c', ';'], ['\u011D']⟩,
   ⟨['g', 'c', 'y', ';'], ['\u0433']⟩,
   ⟨['g', 'd', 'o', 't', ';'], ['\u0121']⟩,
   ⟨['g', 'e', ';'], ['\u2265']⟩,
   ⟨['g', 'e', 'l', ';'], ['\u22DB']⟩,
   ⟨['g', 'e', 'q', ';'], ['\u2265']⟩,
   ⟨['g', 'e', 'q', 'q', ';'], ['\u2267']⟩,
   ⟨['g', 'e', 'q', 's', 'l', 'a', 'n', 't', ';'], ['\u2A7E']⟩,
   ⟨['g', 'e', 's', ';'], ['\u2A7E']⟩,
   ⟨['g', 'e', 's', 'c', 'c', ';'], ['\u2AA9']⟩,
   ⟨['g', 'e', 's', 'd', 'o', 't', ';'], ['\u2A80']⟩,
   ⟨['g', 'e', 's', 'd', 'o', 't', 'o', ';'], ['\u2A82']⟩,
   ⟨['g', 'e', 's', 'd', 'o', 't', 'o', 'l', ';'], ['\u2A84']⟩,
   ⟨['g', 'e', 's', 'l', ';'], ['\u22DB', '\uFE00']⟩,
   ⟨['g', 'e', 's', 'l', 'e', 's', ';'], ['\u2A94']⟩,
   ⟨['g', 'f', 'r', ';'], ['𝔤']⟩,
   ⟨['g', 'g', ';'], ['\u226B']⟩,
   ⟨['g', 'g', 'g', ';'], ['\u22D9']⟩,
   ⟨['g', 'i', 'm', 'e', 'l', ';'], ['\u2137']⟩,
   ⟨['g', 'j', 'c', 'y', ';'], ['\u0453']⟩,
   ⟨['g', 'l', ';'], ['\u2277']⟩,
   ⟨['g', 'l', 'E', ';'], ['\u2A92']⟩,
   ⟨['g', 'l', 'a', ';'], ['\u2AA5']⟩,
   ⟨['g', 'l', 'j', ';'], ['\u2AA4']⟩,
   ⟨['g', 'n', 'E', ';'], ['\u2269']⟩,
   ⟨['g', 'n', 'a', 'p', ';'], ['\u2A8A']⟩,
   ⟨['g', 'n', 'a', 'p', 'p', 'r', 'o', 'x', ';'], ['\u2A8A']⟩,
   ⟨['g', 'n', 'e', ';'], ['\u2A88']⟩,
   ⟨['g', 'n', 'e', 'q', ';'], ['\u2A88']⟩,
   ⟨['g', 'n', 'e', 'q', 'q', ';'], ['\u2269']⟩,
   ⟨['g', 'n', 's', 'i', 'm', ';'], ['\u22E7']⟩,
   ⟨['g', 'o', 'p', 'f', ';'], ['𝕘']⟩,
   ⟨['g', 'r', 'a', 'v', 'e', ';'], ['\x60']⟩,
   ⟨['g', 's', 'c', 'r', ';'], ['\u210A']⟩,
   ⟨['g', 's', 'i', 'm', ';'], ['\u2273']⟩,
   ⟨['g', 's', 'i', 'm', 'e', ';'], ['\u2A8E']⟩,
   ⟨['g', 's', 'i', 'm', 'l', ';'], ['\u2A90']⟩,
   ⟨['g', 't'], ['>']⟩,
   ⟨['g', 't', ';'], ['>']⟩,
   ⟨['g', 't', 'c', 'c', ';'], ['\u2AA7']⟩,
   ⟨['g', 't', 'c', 'i', 'r', ';'], ['\u2A7A']⟩,
   ⟨['g', 't', 'd', 'o', 't', ';'], ['\u22D7']⟩,
   ⟨['g', 't', 'l', 'P', 'a', 'r', ';'], ['\u2995']⟩,
   ⟨['g', 't', 'q', 'u', 'e', 's', 't', ';'], ['\u2A7C']⟩,
   ⟨['g', 't', 'r', 'a', 'p', 'p', 'r', 'o', 'x', ';'], ['\u2A86']⟩,
   ⟨['g', 't', 'r', 'a', 'r', 'r', ';'], ['\u2978']⟩,
   ⟨['g', 't', 'r', 'd', 'o', 't', ';'], ['\u22D7']⟩,
   ⟨['g', 't', 'r', 'e', 'q', 'l', 'e', 's', 's', ';'], ['\u22DB']⟩,
   ⟨['g', 't', 'r', 'e', 'q', 'q', 'l', 'e', 's', 's', ';'], ['\u2A8C']⟩,
   ⟨['g', 't', 'r', 'l', 'e', 's', 's', ';'], ['\u2277']⟩,
   ⟨['g', 't', 'r', 's', 'i', 'm', ';'], ['\u2273']⟩,
   ⟨['g', 'v', 'e', 'r', 't', 'n', 'e', 'q', 'q', ';'], ['\u2269', '\uFE00']⟩,
   ⟨['g', 'v', 'n', 'E', ';'], ['\u2269', '\uFE00']⟩]

/-- The names that begin with `d` to `g`. -/
def dToG : List Entry :=
  lowerD ++ lowerE ++ lowerF ++ lowerG

end Hypertext.Entity.Table
