import Libamg.C.Columns
import Libamg.C.Hex
import Libamg.Net.Address

/-!
# The ARP table

`/proc/net/arp` as the kernel prints it, and `libamg_arp_get_hwaddr`, which looks through
its lines. `lineMatches_iff` says which entries the test of the loop accepts, and
`arpGetHwaddr_table` which address is found.
-/

namespace Libamg.Net

open C

/-- `sizeof(line)`. -/
def lineSize : Nat := 128

def colon : Byte := 58

/-! ## libamg_arp_get_hwaddr -/

/-- The test of the loop: `strstr(line, ipaddr_str) && line[strlen(ipaddr_str)] == ' '`. -/
def LineMatches (ipaddrStr text : Text) : Prop :=
  ipaddrStr <:+: text ∧ text[ipaddrStr.length]? = some blank

instance (ipaddrStr text : Text) : Decidable (LineMatches ipaddrStr text) :=
  inferInstanceAs (Decidable (_ ∧ _))

/-- The loop over the lines: `hwaddr_str` when it has come to the end, `none` when a line
has no fourth word. That word goes into an array of 18 bytes without a check. -/
def arpLoop (ipaddrStr : Text) : List Text → Text → Checked (Option Text)
  | [], hwaddrStr => .ok (some hwaddrStr)
  | buffer :: lines, hwaddrStr =>
      let line := cstr buffer
      if LineMatches ipaddrStr line then
        match (tokens whitespace line)[3]? with
        | none => .ok none
        | some word => do
            let hwaddrStr ← sprintf 18 word
            arpLoop ipaddrStr lines hwaddrStr
      else arpLoop ipaddrStr lines hwaddrStr

/-- `libamg_arp_get_hwaddr`: the returned status and `hwaddr` afterwards.
`/proc/net/arp` is `none` when it cannot be opened. -/
def arpGetHwaddr (file : Option Text) (ipaddr : InAddr) (hwaddr : CharArray 6) :
    Checked (Int32 × CharArray 6) :=
  match file with
  | none => .ok (-1, hwaddr)
  | some text => do
      match ← arpLoop (inetNtop ipaddr) (fgetsLines lineSize text) [] with
      | none => return (-1, hwaddr)
      | some hwaddrStr => return (0, hwaddr.overwrite (scanBytes colon 6 hwaddrStr))

/-! ## The kernel's text -/

/-- The name of a network device. -/
structure IsDevice (name : Text) : Prop where
  field : IsField name
  noNul : 0 ∉ name
  short : name.length ≤ 15

/-- An entry of the table. -/
structure ArpEntry where
  ip : InAddr
  hwType : UInt16
  flags : UInt32
  hwaddr : CharArray 6
  device : Text
  isDevice : IsDevice device

def arpHeader : Text :=
  lit "IP address       HW type     Flags       HW address            Mask     Device"

namespace ArpEntry

/-- `"%-16s 0x%-10x0x%-10x%-17s     *        %s"`. -/
def line (entry : ArpEntry) : Text := List.flatten
  [padRight 16 (inetNtop entry.ip), lit " 0x", padRight 10 (printHex entry.hwType.toNat), lit "0x",
    padRight 10 (printHex entry.flags.toNat), padRight 17 (printBytes colon entry.hwaddr.bytes),
    lit "     *        ", entry.device]

/-- The words of a line before the device, with the blanks behind them. -/
def words (entry : ArpEntry) : List (Text × Nat) :=
  [(inetNtop entry.ip, 16 - (inetNtop entry.ip).length),
    (lit "0x" ++ printHex entry.hwType.toNat, 9 - (printHex entry.hwType.toNat).length),
    (lit "0x" ++ printHex entry.flags.toNat, 9 - (printHex entry.flags.toNat).length),
    (printBytes colon entry.hwaddr.bytes, 4), (lit "*", 7)]

end ArpEntry

/-- The text of a table. -/
def arpText (table : List ArpEntry) : Text :=
  arpHeader ++ newline :: table.flatMap fun entry => entry.line ++ [newline]

/-! ## One line -/

namespace ArpEntry

theorem hwType_length (entry : ArpEntry) : (printHex entry.hwType.toNat).length ≤ 4 :=
  printHex_length_le (by decide) entry.hwType.toNat_lt

theorem flags_length (entry : ArpEntry) : (printHex entry.flags.toNat).length ≤ 8 :=
  printHex_length_le (by decide) entry.flags.toNat_lt

theorem hwaddr_length (entry : ArpEntry) : (printBytes colon entry.hwaddr.bytes).length = 17 := by
  have six := entry.hwaddr.size_eq
  have nonempty : entry.hwaddr.bytes ≠ [] := List.ne_nil_of_length_pos (by omega)
  have length := printBytes_length colon nonempty
  omega

theorem padRight_succ {text : Text} {width : Nat} (short : text.length ≤ width) :
    padRight (width + 1) text = text ++ blank :: List.replicate (width - text.length) blank := by
  rw [padRight, Nat.succ_sub short, List.replicate_succ]

theorem line_eq_columns (entry : ArpEntry) : entry.line = columns entry.words entry.device := by
  have hwType := entry.hwType_length
  have flags := entry.flags_length
  have first : lit " 0x" = blank :: lit "0x" := by decide
  have last : lit "     *        " =
      blank :: (List.replicate 4 blank ++ (lit "*" ++ blank :: List.replicate 7 blank)) := by decide
  have whole : padRight 17 (printBytes colon entry.hwaddr.bytes) =
      printBytes colon entry.hwaddr.bytes := by
    rw [padRight, entry.hwaddr_length, Nat.sub_self, List.replicate_zero, List.append_nil]
  rw [line, padRight_succ (Nat.le_trans hwType (by decide)),
    padRight_succ (Nat.le_trans flags (by decide)), whole, first, last, padRight]
  simp only [words, columns, List.flatten_cons, List.flatten_nil, List.append_assoc,
    List.cons_append, List.append_nil, replicate_append_blank]

theorem isWord_of_hexDigits {text : Text} (digits : ∀ byte ∈ text, ∃ digit < 16, byte = hexDigit digit) :
    IsWord text := by
  intro byte member
  obtain ⟨digit, small, rfl⟩ := digits byte member
  exact (hexDigit_spec small).2.2

theorem dot_ne_hexDigit {digit : Nat} (small : digit < 16) : dot ≠ hexDigit digit :=
  fun same => isHexDigit_ne (hexDigit_spec small).1 (by decide) same.symm

/-- The columns behind the address are words without a dot. -/
theorem words_tail (entry : ArpEntry) :
    ∀ word ∈ entry.words.tail, IsWord word.1 ∧ word.1 ≠ [] ∧ dot ∉ word.1 := by
  have hexWord (n : Nat) : IsWord (lit "0x" ++ printHex n) ∧ lit "0x" ++ printHex n ≠ [] ∧
      dot ∉ lit "0x" ++ printHex n := by
    have front : IsWord (lit "0x") := by decide
    refine ⟨front.append (isWord_of_hexDigits fun _ => mem_printHex), List.cons_ne_nil _ _, ?_⟩
    intro member
    rcases List.mem_append.mp member with inFront | inHex
    · exact absurd inFront (by decide)
    · obtain ⟨digit, small, same⟩ := mem_printHex inHex
      exact dot_ne_hexDigit small same
  have nonempty : printBytes colon entry.hwaddr.bytes ≠ [] := by
    have length := entry.hwaddr_length
    exact List.ne_nil_of_length_pos (by omega)
  have hwWord : IsWord (printBytes colon entry.hwaddr.bytes) := by
    intro byte member
    rcases mem_printBytes member with rfl | ⟨digit, small, rfl⟩
    · decide
    · exact (hexDigit_spec small).2.2
  have hwDot : dot ∉ printBytes colon entry.hwaddr.bytes := by
    intro member
    rcases mem_printBytes member with impossible | ⟨digit, small, same⟩
    · exact absurd impossible (by decide)
    · exact dot_ne_hexDigit small same
  simp only [words, List.tail_cons, List.forall_mem_cons, List.not_mem_nil, IsEmpty.forall_iff,
    implies_true, and_true]
  exact ⟨hexWord _, hexWord _, ⟨hwWord, nonempty, hwDot⟩, by decide⟩

theorem words_eq_cons (entry : ArpEntry) :
    entry.words = (inetNtop entry.ip, 16 - (inetNtop entry.ip).length) :: entry.words.tail := rfl

/-- The columns are words without blanks. -/
theorem words_isField (entry : ArpEntry) : ∀ word ∈ entry.words, IsField word.1 := by
  rw [words_eq_cons, List.forall_mem_cons]
  refine ⟨.of_isWord (inetNtop_isWord entry.ip) (inetNtop_ne_nil entry.ip), ?_⟩
  intro word listed
  obtain ⟨isWord, nonempty, -⟩ := entry.words_tail word listed
  exact .of_isWord isWord nonempty

/-- The fourth word is the hardware address. -/
theorem fourth_word (entry : ArpEntry) :
    (tokens whitespace (entry.line ++ [newline]))[3]? =
      some (printBytes colon entry.hwaddr.bytes) := by
  rw [line_eq_columns, tokens_columns entry.words_isField entry.isDevice.field (by decide)]
  rfl

/-- A line has neither NULs nor newlines in it. -/
theorem notMem_line (entry : ArpEntry) {byte : Byte} (noGraph : isGraph byte = false)
    (notBlank : byte ≠ blank) (notInDevice : byte ∉ entry.device) : byte ∉ entry.line := by
  have notInWord {word : Text} (isWord : IsWord word) : byte ∉ word := by
    intro member
    have graph := isWord byte member
    rw [noGraph] at graph
    cases graph
  rw [line_eq_columns]
  intro member
  rcases mem_columns member with isBlank | ⟨word, listed, inWord⟩ | inDevice
  · exact notBlank isBlank
  · rw [words_eq_cons] at listed
    rcases List.mem_cons.mp listed with rfl | inTail
    · exact notInWord (inetNtop_isWord entry.ip) inWord
    · exact notInWord (entry.words_tail word inTail).1 inWord
  · exact notInDevice inDevice

theorem newline_notMem_line (entry : ArpEntry) : newline ∉ entry.line :=
  entry.notMem_line (by decide) (by decide) fun member =>
    entry.isDevice.field.2 newline member (by decide)

theorem nul_notMem_line (entry : ArpEntry) : 0 ∉ entry.line :=
  entry.notMem_line (by decide) (by decide) entry.isDevice.noNul

/-- A line fits the buffer. -/
theorem line_length (entry : ArpEntry) : entry.line.length ≤ 87 := by
  have ip := inetNtop_length_le entry.ip
  have hwType := entry.hwType_length
  have flags := entry.flags_length
  have hwaddr := entry.hwaddr_length
  have device := entry.isDevice.short
  have fixed : (lit " 0x").length = 3 ∧ (lit "0x").length = 2 ∧
      (lit "     *        ").length = 14 := by decide
  simp only [line, List.flatten_cons, List.flatten_nil, List.length_append, List.length_nil,
    padRight_length, fixed]
  omega

/-- The entry is for the address, or the address stands in the name of its device. -/
def Answers (ip : InAddr) (entry : ArpEntry) : Prop :=
  entry.ip = ip ∨
    ((inetNtop entry.ip).length ≤ (inetNtop ip).length ∧ inetNtop ip <:+: entry.device)

instance (ip : InAddr) (entry : ArpEntry) : Decidable (entry.Answers ip) :=
  inferInstanceAs (Decidable (_ ∨ _ ∧ _))

/-- The text of an address occurs in a line as the first word or in the device. -/
theorem infix_line (ip : InAddr) (entry : ArpEntry) :
    inetNtop ip <:+: entry.line ++ [newline] ↔
      inetNtop ip <:+: inetNtop entry.ip ∨ inetNtop ip <:+: entry.device := by
  have noBlank : blank ∉ inetNtop ip := notMem_inetNtop (by decide) (by decide) ip
  have noNewline : newline ∉ inetNtop ip := notMem_inetNtop (by decide) (by decide) ip
  have nonempty := inetNtop_ne_nil ip
  have notInTail : ¬ ∃ word ∈ entry.words.tail, inetNtop ip <:+: word.1 := by
    rintro ⟨word, listed, inside⟩
    exact (entry.words_tail word listed).2.2 (inside.subset (dot_mem_inetNtop ip))
  rw [infix_separator noNewline, line_eq_columns, infix_columns noBlank nonempty, words_eq_cons]
  simp only [List.mem_cons, exists_eq_or_imp, notInTail, or_false, List.infix_nil, nonempty]

/-- The first word and the blanks behind it. -/
theorem line_getElem (entry : ArpEntry) {index : Nat} (behind : (inetNtop entry.ip).length ≤ index)
    (before : index ≤ 16) : (entry.line ++ [newline])[index]? = some blank := by
  have room : index - (inetNtop entry.ip).length < 17 - (inetNtop entry.ip).length := by omega
  have gap (rest : Text) : blank :: (List.replicate (16 - (inetNtop entry.ip).length) blank ++ rest) =
      List.replicate (17 - (inetNtop entry.ip).length) blank ++ rest := by
    have length := inetNtop_length_le entry.ip
    rw [← List.cons_append, ← List.replicate_succ]
    congr 2
    omega
  rw [line_eq_columns, words_eq_cons, columns, gap, List.append_assoc, List.append_assoc,
    List.getElem?_append_right behind, List.getElem?_append_left (by simpa using room),
    List.getElem?_replicate_of_lt room]

/-- The test of the loop accepts these entries. -/
theorem lineMatches_iff (ip : InAddr) (entry : ArpEntry) :
    LineMatches (inetNtop ip) (entry.line ++ [newline]) ↔ entry.Answers ip := by
  have bound := inetNtop_length_le ip
  rw [LineMatches, infix_line]
  constructor
  · rintro ⟨occurs, isBlank⟩
    have shorter : (inetNtop entry.ip).length ≤ (inetNtop ip).length := by
      by_contra longer
      have inWord : (inetNtop ip).length < (inetNtop entry.ip).length := Nat.lt_of_not_le longer
      rw [line_eq_columns, words_eq_cons, columns, List.append_assoc,
        List.getElem?_append_left inWord] at isBlank
      have member : blank ∈ inetNtop entry.ip := List.mem_of_getElem? isBlank
      exact notMem_inetNtop (by decide) (by decide) entry.ip member
    rcases occurs with inAddress | inDevice
    · have same := inAddress.eq_of_length_le shorter
      exact .inl (inetNtop_injective same).symm
    · exact .inr ⟨shorter, inDevice⟩
  · rintro (rfl | ⟨shorter, inDevice⟩)
    · exact ⟨.inl List.infix_rfl, entry.line_getElem (Nat.le_refl _) (by omega)⟩
    · exact ⟨.inr inDevice, entry.line_getElem shorter (by omega)⟩

end ArpEntry

/-! ## The whole table -/

/-- The address of the last entry that is accepted, or six zeros. -/
def lookUp (ip : InAddr) (table : List ArpEntry) : CharArray 6 :=
  ((table.filter (·.Answers ip)).map ArpEntry.hwaddr).getLastD (.zero 6)

theorem lookUp_iff {ip : InAddr} {table : List ArpEntry} {hwaddr : CharArray 6} :
    lookUp ip table = hwaddr ↔
      (∃ last ∈ (table.filter (·.Answers ip)).getLast?, last.hwaddr = hwaddr) ∨
        (∀ entry ∈ table, ¬ entry.Answers ip) ∧ hwaddr = .zero 6 := by
  have nothing : (∀ entry ∈ table, ¬ entry.Answers ip) ↔ table.filter (·.Answers ip) = [] := by
    simp only [List.filter_eq_nil_iff, decide_eq_true_eq]
  rw [nothing, lookUp]
  cases table.filter (·.Answers ip) using List.reverseRecOn with
  | nil => simp [eq_comm]
  | append_singleton entries last => simp

theorem arpLoop_entries (ip : InAddr) (table : List ArpEntry) (hwaddrStr : Text) :
    arpLoop (inetNtop ip) (table.map fun entry => entry.line ++ [newline]) hwaddrStr =
      .ok (some (((table.filter (·.Answers ip)).map fun entry =>
        printBytes colon entry.hwaddr.bytes).getLastD hwaddrStr)) := by
  induction table generalizing hwaddrStr with
  | nil => rfl
  | cons entry table inductionHypothesis =>
      have noNul : 0 ∉ entry.line ++ [newline] := by
        have different : (0 : Byte) ≠ newline := by decide
        simp [entry.nul_notMem_line, different]
      have fits : (printBytes colon entry.hwaddr.bytes).length < 18 := by
        rw [entry.hwaddr_length]
        decide
      rw [List.map_cons, arpLoop, cstr_eq_self noNul]
      by_cases answers : entry.Answers ip
      · have kept : (entry :: table).filter (·.Answers ip) =
            entry :: table.filter (·.Answers ip) := List.filter_cons_of_pos (by simpa using answers)
        have accepted := (entry.lineMatches_iff ip).mpr answers
        rw [kept, List.map_cons, List.getLastD_cons, ← inductionHypothesis]
        simp only [if_pos accepted, entry.fourth_word, sprintf_eq fits, Checked.ok_bind]
      · have dropped : (entry :: table).filter (·.Answers ip) = table.filter (·.Answers ip) :=
          List.filter_cons_of_neg (by simpa using answers)
        have refused := fun accepted => answers ((entry.lineMatches_iff ip).mp accepted)
        rw [dropped, ← inductionHypothesis]
        simp only [if_neg refused]

theorem fgetsLines_arpText (table : List ArpEntry) :
    fgetsLines lineSize (arpText table) =
      (arpHeader ++ [newline]) :: table.map fun entry => entry.line ++ [newline] := by
  have headerShape : newline ∉ arpHeader ∧ arpHeader.length + 1 < lineSize := by decide
  rw [arpText, fgetsLines_cons _ headerShape.1 headerShape.2]
  congr 1
  induction table with
  | nil => exact fgetsLines_nil lineSize
  | cons entry table inductionHypothesis =>
      have short : entry.line.length + 1 < lineSize := by
        have length := entry.line_length
        rw [lineSize]
        omega
      rw [List.flatMap_cons, List.append_assoc, List.singleton_append,
        fgetsLines_cons _ entry.newline_notMem_line short, inductionHypothesis, List.map_cons]

/-- The header has no dot in it. -/
theorem not_lineMatches_header (ip : InAddr) : ¬ LineMatches (inetNtop ip) (arpHeader ++ [newline]) := by
  rintro ⟨occurs, -⟩
  have member := occurs.subset (dot_mem_inetNtop ip)
  exact absurd member (by decide)

/-- A printed address is read back, whatever the buffer held before. -/
theorem overwrite_scanBytes (buffer hwaddr : CharArray 6) :
    buffer.overwrite (scanBytes colon 6 (printBytes colon hwaddr.bytes)) = hwaddr := by
  have six := hwaddr.size_eq
  have read := scanBytes_printBytes (show isHexDigit colon = false by decide) hwaddr.bytes
  rw [six] at read
  have short : buffer.bytes.length ≤ hwaddr.bytes.length := by rw [buffer.size_eq, six]
  ext
  rw [read, CharArray.overwrite_bytes (Nat.le_of_eq six), List.drop_of_length_le short,
    List.append_nil]

/-- What is found in a table of the kernel: the address of the last entry that is accepted. -/
theorem arpGetHwaddr_arpText (table : List ArpEntry) (ip : InAddr) (hwaddr : CharArray 6) :
    arpGetHwaddr (some (arpText table)) ip hwaddr =
      .ok (0, ((table.filter (·.Answers ip)).map ArpEntry.hwaddr).getLastD hwaddr) := by
  have header : cstr (arpHeader ++ [newline]) = arpHeader ++ [newline] :=
    cstr_eq_self (by decide)
  have loop : arpLoop (inetNtop ip) (fgetsLines lineSize (arpText table)) [] =
      .ok (some (((table.filter (·.Answers ip)).map fun entry =>
        printBytes colon entry.hwaddr.bytes).getLastD [])) := by
    rw [fgetsLines_arpText, arpLoop, header, ← arpLoop_entries]
    simp only [if_neg (not_lineMatches_header ip)]
  have result : hwaddr.overwrite (scanBytes colon 6
      (((table.filter (·.Answers ip)).map fun entry =>
        printBytes colon entry.hwaddr.bytes).getLastD [])) =
      ((table.filter (·.Answers ip)).map ArpEntry.hwaddr).getLastD hwaddr := by
    cases table.filter (·.Answers ip) using List.reverseRecOn with
    | nil =>
        have nothing : scanBytes colon 6 [] = [] := rfl
        have fits : ([] : Text).length ≤ 6 := Nat.zero_le 6
        rw [List.map_nil, List.map_nil, List.getLastD_nil, List.getLastD_nil, nothing]
        ext
        rw [CharArray.overwrite_bytes fits]
        rfl
    | append_singleton entries entry =>
        rw [List.map_append, List.map_append, List.map_singleton, List.map_singleton,
          List.getLastD_concat, List.getLastD_concat, overwrite_scanBytes]
  simp only [arpGetHwaddr, loop, Checked.ok_bind, result]
  rfl

/-- What is found with a cleared buffer. -/
theorem arpGetHwaddr_table (table : List ArpEntry) (ip : InAddr) :
    arpGetHwaddr (some (arpText table)) ip (.zero 6) = .ok (0, lookUp ip table) :=
  arpGetHwaddr_arpText table ip (.zero 6)

end Libamg.Net
