import Libamg.Process.GetPid

/-!
# The process found

Which entries of /proc `libamg_process_get_pid` takes, turn by turn. An entry is passed over
or taken as it should be unless its `stat` file reads empty or its name is cut by the end of
the buffer; up to the first match one such entry is enough to spoil the lookup.
-/

namespace Libamg.Process

open C

/-- The second property holds of every item up to the first one that has the first. -/
def UpToFirst {α : Type} (P Q : α → Prop) (items : List α) : Prop :=
  ∀ before item after, items = before ++ item :: after → (∀ earlier ∈ before, ¬ P earlier) → Q item

theorem upToFirst_cons {α : Type} {P Q : α → Prop} {item : α} {items : List α} :
    UpToFirst P Q (item :: items) ↔ Q item ∧ (¬ P item → UpToFirst P Q items) := by
  constructor
  · intro upTo
    refine ⟨upTo [] item items rfl (by simp), ?_⟩
    intro other before next after shape none
    refine upTo (item :: before) next after (by rw [shape, List.cons_append]) ?_
    exact List.forall_mem_cons.mpr ⟨other, none⟩
  · rintro ⟨first, others⟩ before next after shape none
    cases before with
    | nil =>
        cases shape
        exact first
    | cons head before =>
        cases shape
        obtain ⟨other, none⟩ := List.forall_mem_cons.mp none
        exact others other before next after rfl none

/-! ## One turn -/

/-- What the name of a process is made of. -/
structure Decimal (dName : Text) : Prop where
  short : dName.length ≤ 11
  noBlank : blank ∉ dName
  noParen : closeParen ∉ dName
  noNewline : newline ∉ dName
  noNul : 0 ∉ dName

theorem decimal_printInt (n : Int32) : Decimal (printInt n.toInt) where
  short := printInt32_length_le n
  noBlank := notMem_printInt (by decide) (by decide) _
  noParen := notMem_printInt (by decide) (by decide) _
  noNewline := notMem_printInt (by decide) (by decide) _
  noNul := (printInt_isWord _).nul_notMem

/-- Both paths fit in the buffer for them. -/
theorem Decimal.path_length {dName : Text} (decimal : Decimal dName) :
    (statPath dName).length < 256 ∧ (cmdlinePath dName).length < 256 := by
  have short := decimal.short
  have front : (lit "/proc/").length = 6 := rfl
  have stat : (lit "/stat").length = 5 := rfl
  have cmdline : (lit "/cmdline").length = 8 := rfl
  simp only [statPath, cmdlinePath, List.length_append]
  omega

section Visit

variable {fopen : Text → Option Text} {progname dName : Text} {walk : Walk}

/-- What `fgets` reads of a line of `stat`. -/
theorem fgets_stat (decimal : Decimal dName) (line : StatLine) :
    (fgetsLines 256 (dName ++ blank :: openParen :: line.rest)).head? =
        some (dName ++ blank :: openParen :: line.shown dName) ∧
      ((dName ++ blank :: openParen :: line.shown dName) ++ [0]).length ≤ 256 := by
  have short := decimal.short
  have shape : dName ++ blank :: openParen :: line.rest =
      (dName ++ blank :: openParen :: line.comm ++ closeParen :: blank :: line.fields) ++
        newline :: [] := by
    simp only [StatLine.rest, List.append_assoc, List.cons_append]
  have noNewline : newline ∉
      dName ++ blank :: openParen :: line.comm ++ closeParen :: blank :: line.fields := by
    simp [newline, blank, openParen, closeParen]
    exact ⟨decimal.noNewline, line.commLine, line.fieldsLine⟩
  have listed : dName ++ blank :: openParen :: line.rest ∈
      splitLines (dName ++ blank :: openParen :: line.rest) := by
    rw [shape, splitLines_line noNewline]
    exact List.mem_cons_self
  obtain ⟨pieces, pieced⟩ := @fgetsLines_line 255 (by decide) _ _ listed
  have front : (dName ++ blank :: openParen :: line.rest).take 255 =
      dName ++ blank :: openParen :: line.shown dName := by
    obtain ⟨room, same⟩ : ∃ room, 255 - dName.length = room + 2 := ⟨253 - dName.length, by omega⟩
    have less : 253 - dName.length = room := by omega
    rw [List.take_append, List.take_of_length_le (by omega), same, List.take_succ_cons,
      List.take_succ_cons, StatLine.shown, less]
  constructor
  · rw [pieced, List.head?_cons, front]
  · rw [← front, List.length_append, List.length_take, List.length_singleton]
    omega

/-- A line is scanned up to the blank behind its number, and its name is compared. -/
theorem visit_line {line : StatLine} (numeric : atoi dName ≠ 0) (decimal : Decimal dName)
    (opens : fopen (statPath dName) = some (dName ++ blank :: openParen :: line.rest)) :
    ∃ after scan, visit fopen progname walk dName = .ok after ∧ after.pid = atoi dName ∧
      after.found = (walk.found || (nameIn (line.shown dName) = some (cstr progname) &&
        (fopen (cmdlinePath dName)).isSome)) ∧
      after.scans = walk.scans ++ [scan] ∧ scan.reached ≤ scan.read := by
  obtain ⟨read, fits⟩ := fgets_stat decimal line
  let text := dName ++ blank :: openParen :: line.shown dName
  let buf := (walk.buf.overwrite [0]).overwrite (text ++ [0])
  let scan : Scan := ⟨text.length, dName.length + 1⟩
  obtain ⟨untouched, bytes⟩ : ∃ untouched, buf.bytes =
      (dName ++ [blank]) ++ openParen :: (line.shown dName ++ 0 :: untouched) := by
    refine ⟨(walk.buf.overwrite [0]).bytes.drop (text ++ [0]).length, ?_⟩
    rw [CharArray.overwrite_bytes fits]
    simp only [text, List.append_assoc, List.cons_append, List.nil_append]
  have skipped : seek blank buf.bytes 0 = .ok dName.length := by
    rw [bytes, List.append_assoc, List.singleton_append, seek_eq decimal.noBlank,
      Nat.zero_add]
  have plain : closeParen ∉ dName ++ [blank] := by
    have notBlank : closeParen ≠ blank := by decide
    simp [decimal.noParen, notBlank]
  have string : 0 ∉ dName ++ [blank] := by
    have notBlank : (0 : Byte) ≠ blank := by decide
    simp [decimal.noNul, notBlank]
  obtain ⟨compared, inspected⟩ := @inspect_eq fopen progname dName
    ⟨atoi dName, walk.found, buf, walk.scans ++ [scan]⟩ _ _ _ bytes plain string
    line.nul_notMem_shown decimal.path_length.2
  rw [List.length_append, List.length_singleton] at inspected
  refine ⟨⟨atoi dName, _, compared, walk.scans ++ [scan]⟩, scan, ?_, rfl, rfl, rfl, ?_⟩
  · rw [visit, if_neg numeric, sprintf_eq decimal.path_length.1, Checked.ok_bind]
    simp only [opens, read, Option.elim_some]
    rw [skipped, Checked.ok_bind]
    exact inspected
  · change dName.length + 1 ≤ text.length
    rw [List.length_append, List.length_cons]
    omega

/-- Nothing was read: a scan that stays inside the array stops behind the NUL it began at. -/
theorem visit_empty {after : Walk} (numeric : atoi dName ≠ 0) (decimal : Decimal dName)
    (opens : fopen (statPath dName) = some [])
    (returned : visit fopen progname walk dName = .ok after) :
    after.found = walk.found ∧
      ∃ scan, after.scans = walk.scans ++ [scan] ∧ scan.read < scan.reached := by
  rw [visit, if_neg numeric, sprintf_eq decimal.path_length.1, Checked.ok_bind] at returned
  simp only [opens, fgetsLines_nil, List.head?_nil, Option.elim_none] at returned
  obtain ⟨s, -, returned⟩ := Checked.bind_eq_ok returned
  have bytes : (walk.buf.overwrite [0]).bytes = 0 :: walk.buf.bytes.drop 1 :=
    CharArray.overwrite_bytes (by decide)
  have nothing : (walk.buf.overwrite [0]).str = [] := by
    rw [CharArray.str, bytes, cstr_nul]
  have terminated : (walk.buf.overwrite [0]).Terminated := by
    rw [CharArray.Terminated, bytes]
    exact List.mem_cons_self
  obtain rfl := inspect_nothing nothing terminated returned
  exact ⟨rfl, ⟨0, s + 1⟩, rfl, Nat.succ_pos s⟩

end Visit

/-! ## The loop -/

namespace Snapshot

variable (snapshot : Snapshot) (progname : Text)

/-- The function takes the entry for a process of the given name. -/
def Takes (dName : Text) : Prop :=
  atoi dName ≠ 0 ∧ (∃ line, snapshot.stat dName = .line line ∧
    nameIn (line.shown dName) = some (cstr progname)) ∧
    (snapshot.fopen (cmdlinePath dName)).isSome = true

/-- The entry is none of a process, or its file is gone, or it is a line that is legible, as
far as it matters for a process without a command line. -/
def Regular (dName : Text) : Prop :=
  atoi dName ≠ 0 →
    match snapshot.stat dName with
    | .gone => True
    | .empty => False
    | .line line =>
        (snapshot.fopen (cmdlinePath dName)).isSome = true → line.Legible dName (cstr progname)

variable {snapshot progname} {walk : Walk} {dName : Text}

/-- What one turn can do. -/
inductive Turn (snapshot : Snapshot) (progname : Text) (walk : Walk) (dName : Text) :
    Checked Walk → Prop where
  | skipped {after : Walk} (skips : atoi dName = 0 ∨ snapshot.stat dName = .gone)
      (passed : after.found = false) (same : after.scans = walk.scans) :
      Turn snapshot progname walk dName (.ok after)
  | compared {after : Walk} {line : StatLine} {scan : Scan} (numeric : atoi dName ≠ 0)
      (stat : snapshot.stat dName = .line line) (pid : after.pid = atoi dName)
      (found : after.found = true ↔ snapshot.Takes progname dName)
      (appended : after.scans = walk.scans ++ [scan]) (inLine : scan.reached ≤ scan.read) :
      Turn snapshot progname walk dName (.ok after)
  | faulted {fault : Fault} (numeric : atoi dName ≠ 0) (stat : snapshot.stat dName = .empty) :
      Turn snapshot progname walk dName (.error fault)
  | astray {after : Walk} {scan : Scan} (numeric : atoi dName ≠ 0)
      (stat : snapshot.stat dName = .empty) (passed : after.found = false)
      (appended : after.scans = walk.scans ++ [scan]) (past : scan.read < scan.reached) :
      Turn snapshot progname walk dName (.ok after)

theorem turn (listed : dName ∈ snapshot.names) (searching : walk.found = false) :
    Turn snapshot progname walk dName (visit snapshot.fopen progname walk dName) := by
  by_cases numeric : atoi dName = 0
  · rw [visit, if_pos numeric]
    exact .skipped (.inl numeric) searching rfl
  · have decimal : Decimal dName := by
      rw [snapshot.decimal dName listed numeric]
      exact decimal_printInt _
    have opens := snapshot.opens dName listed numeric
    cases stat : snapshot.stat dName with
    | gone =>
        rw [stat, StatFile.content] at opens
        rw [visit, if_neg numeric, sprintf_eq decimal.path_length.1, Checked.ok_bind]
        simp only [opens]
        exact .skipped (.inr stat) searching rfl
    | empty =>
        rw [stat, StatFile.content] at opens
        cases outcome : visit snapshot.fopen progname walk dName with
        | error fault => exact .faulted numeric stat
        | ok after =>
            obtain ⟨same, scan, appended, past⟩ := visit_empty numeric decimal opens outcome
            exact .astray numeric stat (same.trans searching) appended past
    | line line =>
        rw [stat, StatFile.content] at opens
        obtain ⟨after, scan, outcome, pid, found, appended, inLine⟩ :=
          @visit_line _ progname _ walk _ numeric decimal opens
        rw [outcome]
        refine .compared numeric stat pid ?_ appended inLine
        simp [found, searching, Takes, numeric, stat]

/-- A turn only adds to the scans. -/
theorem Turn.extends {after : Walk} (turn : Turn snapshot progname walk dName (.ok after)) :
    ∃ more, after.scans = walk.scans ++ more := by
  cases turn with
  | skipped _ _ same => exact ⟨[], by rw [same, List.append_nil]⟩
  | compared _ _ _ _ appended => exact ⟨_, appended⟩
  | astray _ _ _ appended => exact ⟨_, appended⟩

/-- Whether a line is taken for one of the program is right exactly if the line is regular. -/
theorem regular_line_iff {line : StatLine} (numeric : atoi dName ≠ 0)
    (stat : snapshot.stat dName = .line line) :
    snapshot.Regular progname dName ↔
      (snapshot.Takes progname dName ↔ snapshot.Matches progname dName) := by
  have legible := @StatLine.legible_iff line dName (cstr progname)
  simp only [Regular, Takes, Matches, stat, StatFile.comm, StatFile.line.injEq, exists_eq_left',
    Option.some.injEq, numeric, ne_eq, not_false_eq_true, true_and, forall_const]
  by_cases opens : (snapshot.fopen (cmdlinePath dName)).isSome = true
  · simp only [opens, forall_const, and_true]
    exact legible
  · simp [opens]

theorem not_takes_of_stat (stat : ∀ line, snapshot.stat dName ≠ .line line) :
    ¬ snapshot.Takes progname dName ∧ ¬ snapshot.Matches progname dName := by
  constructor
  · rintro ⟨-, ⟨line, opened, -⟩, -⟩
    exact stat line opened
  · rintro ⟨-, named, -⟩
    cases file : snapshot.stat dName with
    | gone | empty =>
        rw [file] at named
        cases named
    | line line => exact stat line file

/-- The number of a process names one entry. -/
theorem eq_of_atoi {other : Text} (listed : dName ∈ snapshot.names)
    (otherListed : other ∈ snapshot.names) (numeric : atoi dName ≠ 0)
    (same : atoi dName = atoi other) : dName = other := by
  rw [snapshot.decimal dName listed numeric, same,
    ← snapshot.decimal other otherListed (same ▸ numeric)]

theorem expected_cons (names : List Text) : snapshot.expected progname (dName :: names) =
    if snapshot.Matches progname dName then atoi dName else snapshot.expected progname names := by
  rw [expected, List.find?_cons]
  split
  · rw [if_pos (of_decide_eq_true ‹_›)]
    rfl
  · rw [if_neg (of_decide_eq_false ‹_›)]
    rfl

theorem exists_of_expected {names : List Text} (some : snapshot.expected progname names ≠ 0) :
    ∃ dName ∈ names, snapshot.Matches progname dName ∧
      snapshot.expected progname names = atoi dName := by
  induction names with
  | nil => exact absurd rfl some
  | cons first rest inductionHypothesis =>
      rw [expected_cons] at some ⊢
      split at some
      · rw [if_pos ‹_›]
        exact ⟨first, List.mem_cons_self, ‹_›, rfl⟩
      · rw [if_neg ‹_›]
        obtain ⟨dName, listed, named, value⟩ := inductionHypothesis some
        exact ⟨dName, List.mem_cons_of_mem first listed, named, value⟩

section Loop

variable {names : List Text} {after : Walk}

theorem visitAll_of_found (found : walk.found = true) (names : List Text) :
    visitAll snapshot.fopen progname walk names = .ok walk := by
  cases names with
  | nil => rfl
  | cons first rest => exact if_pos found

theorem visitAll_cons (searching : walk.found = false) (rest : List Text) :
    visitAll snapshot.fopen progname walk (dName :: rest) =
      visit snapshot.fopen progname walk dName >>= fun walk =>
        visitAll snapshot.fopen progname walk rest := by
  rw [visitAll, searching]
  rfl

/-- The loop ends with the first entry that it takes, and the scans made until then. -/
theorem visitAll_spec (listed : names ⊆ snapshot.names) (searching : walk.found = false)
    (returned : visitAll snapshot.fopen progname walk names = .ok after) :
    (∃ more, after.scans = walk.scans ++ more) ∧
      (after.found = true → ∃ dName ∈ names, snapshot.Takes progname dName ∧
        after.pid = atoi dName) := by
  induction names generalizing walk with
  | nil =>
      cases returned
      refine ⟨⟨[], (List.append_nil _).symm⟩, fun found => ?_⟩
      rw [searching] at found
      cases found
  | cons first rest inductionHypothesis =>
      obtain ⟨firstListed, restListed⟩ := List.cons_subset.mp listed
      rw [visitAll_cons searching] at returned
      obtain ⟨next, visited, returned⟩ := Checked.bind_eq_ok returned
      have turn := @turn snapshot progname walk first firstListed searching
      rw [visited] at turn
      obtain ⟨begun, extended⟩ := turn.extends
      cases found : next.found with
      | true =>
          rw [visitAll_of_found found] at returned
          cases returned
          refine ⟨⟨begun, extended⟩, fun _ => ?_⟩
          cases turn with
          | skipped _ passed | astray _ _ passed =>
              rw [found] at passed
              cases passed
          | compared _ _ pid takes =>
              exact ⟨first, List.mem_cons_self, takes.mp found, pid⟩
      | false =>
          obtain ⟨⟨more, scans⟩, takes⟩ := inductionHypothesis restListed found returned
          refine ⟨⟨begun ++ more, by rw [scans, extended, List.append_assoc]⟩, fun last => ?_⟩
          obtain ⟨dName, inRest, taken, pid⟩ := takes last
          exact ⟨dName, List.mem_cons_of_mem first inRest, taken, pid⟩

/-- No scan went past the bytes that were read. -/
def InLine (scans : List Scan) : Prop := ∀ scan ∈ scans, scan.reached ≤ scan.read

/-- The loop over the names ends, with the right number and all scans inside their lines. -/
def Finds (snapshot : Snapshot) (progname : Text) (walk : Walk) (names : List Text) : Prop :=
  ∃ after, visitAll snapshot.fopen progname walk names = .ok after ∧
    (if after.found then after.pid else 0) = snapshot.expected progname names ∧ InLine after.scans

theorem not_regular_of_empty (numeric : atoi dName ≠ 0) (stat : snapshot.stat dName = .empty) :
    ¬ snapshot.Regular progname dName := by
  intro regular
  have impossible := regular numeric
  simp only [stat] at impossible

theorem regular_of_skipped (skips : atoi dName = 0 ∨ snapshot.stat dName = .gone) :
    snapshot.Regular progname dName ∧ ¬ snapshot.Matches progname dName := by
  rcases skips with zero | gone
  · exact ⟨fun numeric => absurd zero numeric, fun named => named.1 zero⟩
  · refine ⟨fun _ => ?_, (not_takes_of_stat fun line opened => ?_).2⟩
    · simp only [gone]
    · rw [gone] at opened
      cases opened

theorem inLine_nil : InLine [] := List.forall_mem_nil _

theorem InLine.snoc {scans : List Scan} {scan : Scan} (inLine : InLine scans)
    (last : scan.reached ≤ scan.read) : InLine (scans ++ [scan]) :=
  List.forall_mem_append.mpr ⟨inLine, List.forall_mem_singleton.mpr last⟩

/-- Where the wrong entries are told apart, the number returned is the wrong one. -/
theorem number_ne {next : Walk} (listed : dName :: names ⊆ snapshot.names)
    (numeric : atoi dName ≠ 0) (pid : next.pid = atoi dName)
    (found : next.found = true ↔ snapshot.Takes progname dName)
    (wrong : ¬ (snapshot.Takes progname dName ↔ snapshot.Matches progname dName))
    (returned : visitAll snapshot.fopen progname next names = .ok after) :
    (if after.found then after.pid else 0) ≠
      if snapshot.Matches progname dName then atoi dName else snapshot.expected progname names := by
  obtain ⟨firstListed, restListed⟩ := List.cons_subset.mp listed
  by_cases named : snapshot.Matches progname dName
  · -- the entry is missed, and no later one has its number
    have missed : ¬ snapshot.Takes progname dName := fun taken => wrong (iff_of_true taken named)
    have searching : next.found = false := Bool.eq_false_iff.mpr fun taken => missed (found.mp taken)
    rw [if_pos named]
    intro same
    cases later : after.found with
    | false =>
        rw [later] at same
        exact numeric same.symm
    | true =>
        obtain ⟨other, inRest, taken, number⟩ :=
          (visitAll_spec restListed searching returned).2 later
        rw [later, if_pos rfl, number] at same
        have equal := eq_of_atoi firstListed (restListed inRest) numeric same.symm
        exact missed (equal ▸ taken)
  · -- the entry is taken, and no later one that matches has its number
    have taken : snapshot.Takes progname dName := by
      by_contra missed
      exact wrong (iff_of_false missed named)
    have stops := found.mpr taken
    rw [visitAll_of_found stops] at returned
    cases returned
    rw [if_neg named, stops, if_pos rfl, pid]
    intro same
    obtain ⟨other, inRest, otherNamed, number⟩ := exists_of_expected (same ▸ numeric)
    have equal := eq_of_atoi firstListed (restListed inRest) numeric (same.trans number)
    exact named (equal ▸ otherNamed)

/-- By induction on the names still to come: a regular entry is taken or passed over as it
should be, and one that is not spoils the result or the scan. -/
theorem finds_iff (listed : names ⊆ snapshot.names) (searching : walk.found = false)
    (inLine : InLine walk.scans) :
    Finds snapshot progname walk names ↔
      UpToFirst (snapshot.Matches progname) (snapshot.Regular progname) names := by
  induction names generalizing walk with
  | nil =>
      refine iff_of_true ⟨walk, rfl, ?_, inLine⟩ ?_
      · rw [searching]
        rfl
      · intro before item after shape
        simp at shape
  | cons first rest inductionHypothesis =>
      obtain ⟨firstListed, restListed⟩ := List.cons_subset.mp listed
      rw [upToFirst_cons, Finds, visitAll_cons searching, expected_cons]
      have turn := @turn snapshot progname walk first firstListed searching
      cases outcome : visit snapshot.fopen progname walk first with
      | error fault =>
          rw [outcome] at turn
          cases turn with
          | faulted numeric stat =>
              refine iff_of_false ?_ fun both => not_regular_of_empty numeric stat both.1
              rintro ⟨after, returned, -⟩
              cases returned
      | ok next =>
          rw [outcome] at turn
          rw [Checked.ok_bind]
          cases turn with
          | skipped skips passed same =>
              obtain ⟨regular, other⟩ := @regular_of_skipped snapshot progname _ skips
              rw [if_neg other, and_iff_right regular, forall_prop_of_true other]
              exact inductionHypothesis restListed passed (same ▸ inLine)
          | compared numeric stat pid found appended last =>
              have grown : InLine next.scans := appended ▸ inLine.snoc last
              rw [regular_line_iff numeric stat]
              by_cases right : snapshot.Takes progname first ↔ snapshot.Matches progname first
              · by_cases named : snapshot.Matches progname first
                · have stops := found.mpr (right.mpr named)
                  refine iff_of_true ⟨next, visitAll_of_found stops rest, ?_, grown⟩
                    ⟨right, fun other => absurd named other⟩
                  rw [stops, if_pos named]
                  exact pid
                · have passed : next.found = false :=
                    Bool.eq_false_iff.mpr fun taken => named (right.mp (found.mp taken))
                  rw [if_neg named, and_iff_right right, forall_prop_of_true named]
                  exact inductionHypothesis restListed passed grown
              · refine iff_of_false ?_ fun both => right both.1
                rintro ⟨after, returned, value, -⟩
                exact number_ne listed numeric pid found right returned value
          | astray numeric stat passed appended past =>
              refine iff_of_false ?_ fun both => not_regular_of_empty numeric stat both.1
              rintro ⟨after, returned, -, clean⟩
              obtain ⟨⟨more, scans⟩, -⟩ := visitAll_spec restListed passed returned
              refine Nat.not_le.mpr past (clean _ ?_)
              simp [scans, appended]

end Loop

end Snapshot

/-- The process found is the first one of that name, and 0 stands for none; and no scan goes
past the bytes read for it. -/
def FindsProgram (stack : CharArray 256) (snapshot : Snapshot) (progname : Text) : Prop :=
  ∃ lookup, getPid stack (some snapshot.names) snapshot.fopen progname = .ok lookup ∧
    lookup.value = snapshot.expected progname snapshot.names ∧ Snapshot.InLine lookup.scans

theorem findsProgram_iff_finds (stack : CharArray 256) (snapshot : Snapshot) (progname : Text) :
    FindsProgram stack snapshot progname ↔
      Snapshot.Finds snapshot progname ⟨0, false, stack, []⟩ snapshot.names := by
  constructor
  · rintro ⟨lookup, returned, value, inLine⟩
    obtain ⟨after, looped, returned⟩ := Checked.bind_eq_ok returned
    cases returned
    exact ⟨after, looped, value, inLine⟩
  · rintro ⟨after, looped, value, inLine⟩
    refine ⟨⟨if after.found then after.pid else 0, after.scans⟩, ?_, value, inLine⟩
    rw [getPid, looped]
    rfl

/-- `libamg_process_get_pid` does so exactly if every entry up to the first match is regular:
none of them is a file that reads empty. -/
theorem findsProgram_iff (stack : CharArray 256) (snapshot : Snapshot) (progname : Text) :
    FindsProgram stack snapshot progname ↔
      UpToFirst (snapshot.Matches progname) (snapshot.Regular progname) snapshot.names := by
  rw [findsProgram_iff_finds]
  exact Snapshot.finds_iff (List.Subset.refl _) rfl Snapshot.inLine_nil

/-- What stands behind the number of the first process. -/
def initLine : StatLine where
  comm := lit "init"
  fields := lit "S 0 1 1 0"
  commLine := by decide
  commString := by decide
  fieldsLine := by decide
  fieldsString := by decide
  fieldsPlain := by decide

/-- A directory with this process and an entry that is none. -/
def initProcess : Snapshot where
  names := [lit "self", lit "1"]
  fopen := fun path =>
    if path = lit "/proc/1/stat" then some (lit "1 (init) S 0 1 1 0\n")
    else if path = lit "/proc/1/cmdline" then some (lit "init") else none
  stat := fun _ => .line initLine
  decimal := by
    intro dName listed numeric
    rcases listed with _ | ⟨_, _ | ⟨_, impossible⟩⟩
    · exact absurd rfl numeric
    · rfl
    · cases impossible
  opens := by
    intro dName listed numeric
    rcases listed with _ | ⟨_, _ | ⟨_, impossible⟩⟩
    · exact absurd rfl numeric
    · rfl
    · cases impossible

example : initProcess.expected (lit "init") initProcess.names = 1 := by decide

example : FindsProgram (CharArray.zero 256) initProcess (lit "init") := by
  rw [findsProgram_iff_finds, Snapshot.finds_iff (List.Subset.refl _) rfl Snapshot.inLine_nil]
  refine upToFirst_cons.mpr ⟨fun numeric => absurd rfl numeric, fun _ => ?_⟩
  refine upToFirst_cons.mpr ⟨fun _ _ => .inl (by decide), fun other => absurd ?_ other⟩
  decide

/-- A directory with one process that has just exited. -/
def exitedProcess : Snapshot where
  names := [lit "812"]
  fopen := fun path => if path = lit "/proc/812/stat" then some [] else none
  stat := fun _ => .empty
  decimal := by
    intro dName listed _
    rw [List.mem_singleton.mp listed]
    decide
  opens := by
    intro dName listed _
    rw [List.mem_singleton.mp listed]
    decide

/-- Its `stat` file reads empty, and the scan goes through what the buffer held before. -/
theorem lookup_exited_process :
    ¬ FindsProgram ⟨List.replicate 256 blank, List.length_replicate⟩ exitedProcess (lit "init") := by
  rw [findsProgram_iff_finds, Snapshot.finds_iff (List.Subset.refl _) rfl Snapshot.inLine_nil]
  intro upTo
  have regular := upTo [] (lit "812") [] rfl (by simp)
  exact Snapshot.not_regular_of_empty (by decide) rfl regular

end Libamg.Process
