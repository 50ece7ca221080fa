import Chip8.Machine.Report
import Chip8.Proofs.Text.Words

/-!
# Reading reports

A report is read back word by word: the counters in hexadecimal and the timers in decimal digits,
each register by its two digits, and the addresses on the call stack, where a dash stands for none
(`Status.read?_reportText`). So two machines have the same report just when they agree on what it
tells (`Machine.reportText_tells_status`): on the counters, the registers and the visible addresses,
on whether the program waits for a key, and then on the register that waits.
-/

namespace Chip8

/-- What a report tells of a machine. -/
structure Status where
  pc : UInt16
  index : UInt16
  delay : UInt8
  sound : UInt8
  /-- The values of V0 to VF. -/
  registers : List UInt8
  /-- The addresses on the call stack. -/
  addresses : List UInt16
  /-- The register that waits for a key, if the program does so. -/
  waiting : Option UInt8
deriving DecidableEq, Repr

namespace Machine

def status (m : Machine) : Status where
  pc := m.pc
  index := m.index
  delay := m.delay
  sound := m.sound
  registers := (List.finRange 16).map m.registers.get
  addresses := m.stack.visible
  waiting := if m.awaiting then some m.keyRegister else none

/-! ### The words of a report -/

/-- Where there are two blanks in the line, an empty word stands between them. -/
def counterWords (m : Machine) : List String :=
  ["PC:", "0x" ++ Hex.ofNat 3 m.pc.toNat, "", "I:", "0x" ++ Hex.ofNat 3 m.index.toNat, "",
    "DT:", m.delay.toNat.repr, "", "ST:", m.sound.toNat.repr]

def addressWords (m : Machine) : List String :=
  match m.stack.visible with
  | [] => ["-"]
  | addresses => addresses.map fun a => Hex.ofNat 3 a.toNat

def waitWords (x : Nat) : List String :=
  ["Waiting", "for", "key", "->", "V" ++ Hex.ofNat 1 x]

/-- The words of the lines behind the fourth one. -/
def furtherWords (m : Machine) : List (List String) :=
  if m.awaiting then [waitWords m.keyRegister.toNat] else []

def reportWords (m : Machine) : List (List String) :=
  m.counterWords ::
    [0, 1, 2, 3, 4, 5, 6, 7].map m.registerText ::
    [8, 9, 10, 11, 12, 13, 14, 15].map m.registerText ::
    ("Stack:" :: m.addressWords) :: m.furtherWords

lemma counterLine_eq (m : Machine) : m.counterLine = " ".intercalate m.counterWords := by
  have hpc : "PC: 0x" = "PC:" ++ " " ++ "0x" := by simp only [String.reduceAppend]
  have hindex : "  I: 0x" = " " ++ "" ++ " " ++ "I:" ++ " " ++ "0x" := by
    simp only [String.reduceAppend]
  have hdelay : "  DT: " = " " ++ "" ++ " " ++ "DT:" ++ " " := by simp only [String.reduceAppend]
  have hsound : "  ST: " = " " ++ "" ++ " " ++ "ST:" ++ " " := by simp only [String.reduceAppend]
  unfold counterLine counterWords
  simp only [hpc, hindex, hdelay, hsound, String.intercalate_cons_cons,
    String.intercalate_singleton, String.append_assoc]

lemma stackLine_eq (m : Machine) :
    m.stackLine = " ".intercalate ("Stack:" :: m.addressWords) := by
  unfold stackLine addressWords
  cases m.stack.visible with
  | nil =>
    simp only [String.intercalate_cons_cons, String.intercalate_singleton, String.reduceAppend]
  | cons a as => simp only [List.map_cons, String.intercalate_cons_cons, String.reduceAppend]

lemma waitLine_eq (x : Nat) : waitLine x = " ".intercalate (waitWords x) := by
  unfold waitLine waitWords
  simp only [String.intercalate_cons_cons, String.intercalate_singleton, ← String.append_assoc,
    String.reduceAppend]

lemma furtherLines_eq (m : Machine) :
    (if m.awaiting then [waitLine m.keyRegister.toNat] else []) =
      m.furtherWords.map " ".intercalate := by
  unfold furtherWords
  rw [waitLine_eq, apply_ite (List.map " ".intercalate)]
  rfl

/-- Each line of a report is its words with a blank between any two. -/
lemma report_eq (m : Machine) : m.report = m.reportWords.map " ".intercalate := by
  rw [report, counterLine_eq, stackLine_eq, furtherLines_eq]
  rfl

lemma isWord_of_mem_counterWords (m : Machine) :
    ∀ w ∈ m.counterWords, Text.isWord w = true := by
  simp only [counterWords, List.forall_mem_cons, Text.isWord_append, Text.isWord_ofNat,
    Text.isWord_repr, Bool.and_true]
  decide

lemma isWord_registerText (m : Machine) (x : Fin 16) : Text.isWord (m.registerText x) = true := by
  simp only [registerText, Text.isWord_append, Text.isWord_ofNat, Bool.and_true]
  decide

lemma isWord_of_mem_addressWords (m : Machine) : ∀ w ∈ m.addressWords, Text.isWord w = true := by
  unfold addressWords
  split
  · decide
  · rw [List.forall_mem_map]
    exact fun a _ => Text.isWord_ofNat 3 _

lemma isWord_of_mem_waitWords (x : Nat) : ∀ w ∈ waitWords x, Text.isWord w = true := by
  simp only [waitWords, List.forall_mem_cons, Text.isWord_append, Text.isWord_ofNat, Bool.and_true]
  decide

lemma isWord_of_mem_furtherWords (m : Machine) :
    ∀ ws ∈ m.furtherWords, ws ≠ [] ∧ ∀ w ∈ ws, Text.isWord w = true := by
  unfold furtherWords
  split
  · rw [List.forall_mem_singleton]
    exact ⟨List.cons_ne_nil _ _, isWord_of_mem_waitWords _⟩
  · exact List.forall_mem_nil _

/-- The words of a report have no blanks in them, and there is no empty line. -/
lemma isWord_of_mem_reportWords (m : Machine) :
    ∀ ws ∈ m.reportWords, ws ≠ [] ∧ ∀ w ∈ ws, Text.isWord w = true := by
  have hregisters (xs : List (Fin 16)) : ∀ w ∈ xs.map m.registerText, Text.isWord w = true := by
    rw [List.forall_mem_map]
    exact fun x _ => m.isWord_registerText x
  unfold reportWords
  simp only [List.forall_mem_cons]
  exact ⟨⟨List.cons_ne_nil _ _, m.isWord_of_mem_counterWords⟩,
    ⟨List.cons_ne_nil _ _, hregisters _⟩, ⟨List.cons_ne_nil _ _, hregisters _⟩,
    ⟨List.cons_ne_nil _ _, by decide, m.isWord_of_mem_addressWords⟩,
    m.isWord_of_mem_furtherWords⟩

lemma reportWords_ne_nil (m : Machine) : m.reportWords ≠ [] :=
  List.cons_ne_nil _ _

/-- The report is cut into its words. -/
lemma words_reportText (m : Machine) :
    Text.words m.reportText = m.reportWords.map (List.map String.toList) := by
  rw [reportText, report_eq]
  exact Text.words_text m.reportWords_ne_nil m.isWord_of_mem_reportWords

/-- The text of a report is cut into the lines from which it was put together. These are the lines
that are printed with a fault. -/
lemma splitOn_reportText (m : Machine) :
    m.reportText.toList.splitOn '\n' = m.report.map String.toList := by
  rw [reportText, report_eq,
    Text.splitOn_text m.reportWords_ne_nil fun ws hws => (m.isWord_of_mem_reportWords ws hws).2,
    List.map_map]
  rfl

/-- There are four lines, and a fifth one during a wait. -/
lemma length_lines_reportText (m : Machine) :
    (m.reportText.toList.splitOn '\n').length = if m.awaiting then 5 else 4 := by
  rw [splitOn_reportText, List.length_map, report]
  split <;> rfl

end Machine

/-! ### Reading the words -/

namespace Status

def address? (cs : List Char) : Option UInt16 :=
  (Hex.value? cs).map UInt16.ofNat

def byte? (cs : List Char) : Option UInt8 :=
  (Hex.value? cs).map UInt8.ofNat

/-- A counter is an address with a mark in front of it. -/
def counter? : List Char → Option UInt16
  | '0' :: 'x' :: cs => address? cs
  | _ => none

def timer? (cs : List Char) : Option UInt8 :=
  (Decimal.value? cs).map UInt8.ofNat

/-- A register is a byte with its name in front of it. -/
def register? : List Char → Option UInt8
  | 'V' :: _ :: ':' :: cs => byte? cs
  | _ => none

/-- The addresses on the call stack. A dash alone stands for none. -/
def addresses? : List (List Char) → Option (List UInt16)
  | [['-']] => some []
  | ws => ws.mapM address?

/-- The register that waits, if the lines behind the fourth one tell of a wait. -/
def waiting? : List (List (List Char)) → Option (Option UInt8)
  | [] => some none
  | [[_, _, _, _, 'V' :: cs]] => (byte? cs).map some
  | _ => none

/-- The status that the words of the lines of a report tell. Labels are passed over. -/
def ofWords? : List (List (List Char)) → Option Status
  | [_, pc, _, _, index, _, _, delay, _, _, sound] :: low :: high :: (_ :: stack) :: wait => do
    return {
      pc := ← counter? pc
      index := ← counter? index
      delay := ← timer? delay
      sound := ← timer? sound
      registers := ← (low ++ high).mapM register?
      addresses := ← addresses? stack
      waiting := ← waiting? wait }
  | _ => none

def read? (text : String) : Option Status :=
  ofWords? (Text.words text)

lemma address?_ofNat (width : Nat) (a : UInt16) :
    address? (Hex.ofNat width a.toNat).toList = some a := by
  rw [address?, Hex.value?_ofNat, Option.map_some, UInt16.ofNat_toNat]

lemma byte?_ofNat (width : Nat) (b : UInt8) :
    byte? (Hex.ofNat width b.toNat).toList = some b := by
  rw [byte?, Hex.value?_ofNat, Option.map_some, UInt8.ofNat_toNat]

lemma counter?_ofNat (width : Nat) (a : UInt16) :
    counter? ("0x" ++ Hex.ofNat width a.toNat).toList = some a := by
  rw [String.toList_append]
  exact address?_ofNat width a

lemma timer?_repr (b : UInt8) : timer? b.toNat.repr.toList = some b := by
  rw [timer?, Decimal.value?_repr, Option.map_some, UInt8.ofNat_toNat]

lemma register?_registerText (m : Machine) (x : Fin 16) :
    register? (m.registerText x).toList = some (m.registers.get x) := by
  unfold Machine.registerText
  rw [String.toList_append, String.toList_append, String.toList_append, Hex.toList_ofNat_one]
  exact byte?_ofNat 2 _

lemma registers?_registerText (m : Machine) (xs : List (Fin 16)) :
    ((xs.map m.registerText).map String.toList).mapM register? = some (xs.map m.registers.get) := by
  rw [List.map_map]
  exact List.mapM_map_eq_some (register?_registerText m) xs

lemma addresses?_of_ne {ws : List (List Char)} (h : ws ≠ [['-']]) :
    addresses? ws = ws.mapM address? := by
  unfold addresses?
  split
  · exact absurd rfl h
  · rfl

lemma mapM_address? (as : List UInt16) :
    ((as.map fun a => Hex.ofNat 3 a.toNat).map String.toList).mapM address? = some as := by
  rw [List.map_map]
  exact (List.mapM_map_eq_some (address?_ofNat 3) as).trans (congrArg some (List.map_id' as))

/-- No address is written as a dash, so the dash tells that there is none. -/
lemma addresses?_addressWords (m : Machine) :
    addresses? (m.addressWords.map String.toList) = some m.stack.visible := by
  unfold Machine.addressWords
  cases m.stack.visible with
  | nil => rfl
  | cons a as =>
    have hne : ((a :: as).map fun a => Hex.ofNat 3 a.toNat).map String.toList ≠ [['-']] := by
      intro h
      have hdash : address? ['-'] = some a := (List.cons.inj h).1 ▸ address?_ofNat 3 a
      cases hdash
    exact (addresses?_of_ne hne).trans (mapM_address? (a :: as))

lemma waiting?_furtherWords (m : Machine) :
    waiting? (m.furtherWords.map (List.map String.toList)) = some m.status.waiting := by
  unfold Machine.furtherWords Machine.status
  cases m.awaiting with
  | false => rfl
  | true =>
    have hregister (s : String) : ("V" ++ s).toList = 'V' :: s.toList := by
      rw [String.toList_append]
      rfl
    simp only [if_true, Machine.waitWords, List.map_cons, List.map_nil, hregister, waiting?,
      byte?_ofNat, Option.map_some]

/-- The counters and the timers are read from the first line, whatever the others are. -/
lemma ofWords?_counterWords (m : Machine) (low high stack : List (List Char)) (label : List Char)
    (wait : List (List (List Char))) :
    ofWords? (m.counterWords.map String.toList :: low :: high :: (label :: stack) :: wait) = (do
      let registers ← (low ++ high).mapM register?
      let addresses ← addresses? stack
      let waiting ← waiting? wait
      return ⟨m.pc, m.index, m.delay, m.sound, registers, addresses, waiting⟩) := by
  simp only [Machine.counterWords, List.map_cons, List.map_nil, ofWords?, counter?_ofNat,
    timer?_repr, Option.bind_eq_bind, Option.bind_some]

/-- What a machine reports can be read back. -/
theorem read?_reportText (m : Machine) : read? m.reportText = some m.status := by
  have hregisters := registers?_registerText m (List.finRange 16)
  have hrows : List.finRange 16 =
      [0, 1, 2, 3, 4, 5, 6, 7] ++ [8, 9, 10, 11, 12, 13, 14, 15] := rfl
  rw [hrows, List.map_append, List.map_append] at hregisters
  rw [read?, m.words_reportText, Machine.reportWords]
  refine (ofWords?_counterWords m _ _ _ _ _).trans ?_
  rw [hregisters, addresses?_addressWords, waiting?_furtherWords]
  rfl

end Status

namespace Machine

variable {m m' : Machine}

lemma status_eq_iff :
    m.status = m'.status ↔
      m.pc = m'.pc ∧ m.index = m'.index ∧ m.delay = m'.delay ∧ m.sound = m'.sound ∧
        (∀ x, m.registers.get x = m'.registers.get x) ∧ m.stack.visible = m'.stack.visible ∧
        m.awaiting = m'.awaiting ∧ (m.awaiting = true → m.keyRegister = m'.keyRegister) := by
  have hregisters : (List.finRange 16).map m.registers.get =
      (List.finRange 16).map m'.registers.get ↔ ∀ x, m.registers.get x = m'.registers.get x := by
    rw [List.map_inj_left]
    exact ⟨fun h x => h x (List.mem_finRange x), fun h x _ => h x⟩
  have hwaiting : (if m.awaiting then some m.keyRegister else none) =
      (if m'.awaiting then some m'.keyRegister else none) ↔
        m.awaiting = m'.awaiting ∧ (m.awaiting = true → m.keyRegister = m'.keyRegister) := by
    cases m.awaiting <;> cases m'.awaiting <;> simp
  unfold status
  rw [Status.mk.injEq, hregisters, hwaiting]

/-- A report depends on nothing but what it tells. -/
lemma reportText_congr (h : m.status = m'.status) : m.reportText = m'.reportText := by
  obtain ⟨hpc, hindex, hdelay, hsound, hregisters, hstack, hawaiting, hkey⟩ := status_eq_iff.mp h
  have hcounters : m.counterWords = m'.counterWords := by
    unfold counterWords
    rw [hpc, hindex, hdelay, hsound]
  have hrow : m.registerText = m'.registerText := by
    funext x
    unfold registerText
    rw [hregisters x]
  have haddresses : m.addressWords = m'.addressWords := by
    unfold addressWords
    rw [hstack]
  have hfurther : m.furtherWords = m'.furtherWords := by
    unfold furtherWords
    rw [← hawaiting]
    split
    next hwaits => rw [hkey hwaits]
    · rfl
  rw [reportText, reportText, report_eq, report_eq, reportWords, reportWords, hcounters, hrow,
    haddresses, hfurther]

/-- The text of a report tells as much of the machine as can be read back from it, and it has four
lines, or five if the program waits for a key. -/
theorem reportText_tells_status :
    (∀ m m' : Machine, m.reportText = m'.reportText ↔
      m.pc = m'.pc ∧ m.index = m'.index ∧ m.delay = m'.delay ∧ m.sound = m'.sound ∧
        (∀ x, m.registers.get x = m'.registers.get x) ∧ m.stack.visible = m'.stack.visible ∧
        m.awaiting = m'.awaiting ∧ (m.awaiting = true → m.keyRegister = m'.keyRegister)) ∧
    (∀ m : Machine, Status.read? m.reportText = some m.status) ∧
    ∀ m : Machine,
      (m.reportText.toList.splitOn '\n').length = if m.awaiting then 5 else 4 := by
  refine ⟨fun m m' => ?_, Status.read?_reportText, length_lines_reportText⟩
  rw [← status_eq_iff]
  constructor
  · intro h
    have hread := Status.read?_reportText m
    rw [h, Status.read?_reportText m'] at hread
    exact (Option.some.inj hread).symm
  · exact reportText_congr

end Machine

end Chip8
