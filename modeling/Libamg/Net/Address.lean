import Libamg.C.Decimal
import Libamg.C.Memory
import Libamg.C.Tokens

/-!
# Internet addresses

`inetNtop` is the dotted text of an address. It says which address it is
(`inetNtop_injective`), and it is a word of digits with a dot in it.
-/

namespace Libamg.Net

open C

/-- `struct in_addr`, byte by byte in network order. -/
@[ext] structure InAddr where
  first : Byte
  second : Byte
  third : Byte
  fourth : Byte
deriving DecidableEq

/-- The address cleared by `memset`. -/
def InAddr.zero : InAddr := ⟨0, 0, 0, 0⟩

def dot : Byte := 46

/-- `inet_ntop(AF_INET, ...)`. -/
def inetNtop (ip : InAddr) : Text :=
  printNat ip.first.toNat ++ dot :: (printNat ip.second.toNat ++
    dot :: (printNat ip.third.toNat ++ dot :: printNat ip.fourth.toNat))

theorem dot_mem_inetNtop (ip : InAddr) : dot ∈ inetNtop ip :=
  List.mem_append_right _ List.mem_cons_self

theorem inetNtop_ne_nil (ip : InAddr) : inetNtop ip ≠ [] :=
  List.ne_nil_of_mem (dot_mem_inetNtop ip)

theorem mem_inetNtop {byte : Byte} {ip : InAddr} (member : byte ∈ inetNtop ip) :
    isDigit byte = true ∨ byte = dot := by
  simp only [inetNtop, List.mem_append, List.mem_cons] at member
  rcases member with first | isDot | second | isDot | third | isDot | fourth
  · exact .inl (printNat_isDigit _ byte first)
  · exact .inr isDot
  · exact .inl (printNat_isDigit _ byte second)
  · exact .inr isDot
  · exact .inl (printNat_isDigit _ byte third)
  · exact .inr isDot
  · exact .inl (printNat_isDigit _ byte fourth)

theorem notMem_inetNtop {byte : Byte} (noDigit : isDigit byte = false) (noDot : byte ≠ dot)
    (ip : InAddr) : byte ∉ inetNtop ip := by
  intro member
  rcases mem_inetNtop member with digit | isDot
  · rw [noDigit] at digit
    cases digit
  · exact noDot isDot

theorem inetNtop_isWord (ip : InAddr) : IsWord (inetNtop ip) := by
  intro byte member
  rcases mem_inetNtop member with digit | rfl
  · exact isDigit_isGraph digit
  · decide

/-- Three digits for each byte, and three dots. -/
theorem inetNtop_length_le (ip : InAddr) : (inetNtop ip).length ≤ 15 := by
  have printed (byte : Byte) : (printNat byte.toNat).length ≤ 3 := by
    have bound := byte.toNat_lt
    exact printNat_length_le (by decide) (by omega)
  have first := printed ip.first
  have second := printed ip.second
  have third := printed ip.third
  have fourth := printed ip.fourth
  simp only [inetNtop, List.length_append, List.length_cons]
  omega

theorem printNat_injective : Function.Injective printNat :=
  Function.LeftInverse.injective digitsValue_printNat

theorem dot_notMem_printNat (n : Nat) : dot ∉ printNat n := by
  intro member
  have digit := printNat_isDigit n dot member
  cases digit

/-- Two texts of numbers with a dot behind the first agree in both parts. -/
theorem printNat_dot_inj {n m : Nat} {rest other : Text}
    (same : printNat n ++ dot :: rest = printNat m ++ dot :: other) : n = m ∧ rest = other := by
  have cut := congrArg (splitFirst dot) same
  rw [splitFirst_append _ (dot_notMem_printNat n), splitFirst_append _ (dot_notMem_printNat m)] at cut
  cases printNat_injective (Prod.mk.inj (Option.some.inj cut)).1
  exact ⟨rfl, (Prod.mk.inj (Option.some.inj cut)).2⟩

/-- The text of an address tells which one it is. -/
theorem inetNtop_injective : Function.Injective inetNtop := by
  intro ip other same
  obtain ⟨first, same⟩ := printNat_dot_inj same
  obtain ⟨second, same⟩ := printNat_dot_inj same
  obtain ⟨third, same⟩ := printNat_dot_inj same
  have fourth := printNat_injective same
  ext
  · exact first
  · exact second
  · exact third
  · exact fourth

end Libamg.Net
