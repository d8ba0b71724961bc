import OomHero.Processes.Reader

/-!
# Processes - Collecting rendered data

The kernel renders the data of a process into seven files.  Collecting undoes the
rendering for every layout of the files: whitespace around scalars, the order of
lines and of tokens, the gaps between tokens and blank lines do not matter.

Main results:

- Theorem {lit}`PressureLayout.parse_content`: a pressure file in any layout parses
  to the pressure it shows.
- Theorem {lit}`ProcFsReader.collectProcessData_renders`: collecting from rendered
  files returns the data they were rendered from.
-/

namespace OomHero

open Text

variable {F : Type} [F32 F]

/-! ## Scalars -/

/-- A text with whitespace around it. -/
def Padded (text content : String) : Prop :=
  ∃ lead trail : String, Blank lead.toList ∧ Blank trail.toList ∧ content = lead ++ text ++ trail

/-- Digits are not whitespace. -/
theorem isWhitespace_of_isDigit {c : Char} (h : c.isDigit = true) : isWhitespace c = false := by
  have hrange : 48 ≤ c.toNat ∧ c.toNat ≤ 57 := by
    simp only [Char.isDigit, Bool.and_eq_true, decide_eq_true_eq, ge_iff_le,
      UInt32.le_iff_toNat_le] at h
    exact h
  unfold isWhitespace
  simp only [Bool.or_eq_false_iff, Bool.and_eq_false_iff, decide_eq_false_iff_not]
  omega

/-- The digits of a number are neither whitespace nor separators. -/
theorem solid_nat (n : Nat) :
    ∀ c ∈ (toString n).toList, isWhitespace c = false ∧ c ≠ '=' := by
  intro c hc
  have hlist : (toString n).toList = Nat.toDigits 10 n := Nat.toList_repr
  rw [hlist] at hc
  have hdigit := Nat.isDigit_of_mem_toDigits (by decide) (by decide) hc
  refine ⟨isWhitespace_of_isDigit hdigit, ?_⟩
  rintro rfl
  exact absurd hdigit (by decide)

/-- The digits of a number are a token. -/
theorem token_nat (n : Nat) : Token (toString n).toList := by
  have hlist : (toString n).toList = Nat.toDigits 10 n := Nat.toList_repr
  constructor
  · rw [hlist]
    exact Nat.toDigits_ne_nil
  · exact fun c hc => (solid_nat n c hc).1

/-- The digits of a number, with a sign if it is negative, are a token. -/
theorem token_int (i : Int) : Token (toString i).toList := by
  cases i with
  | ofNat n => exact token_nat n
  | negSucc n =>
      have htoken := token_nat (n + 1)
      have hlist : (toString (Int.negSucc n)).toList = '-' :: (toString (n + 1)).toList := by
        have hrepr : toString (Int.negSucc n) = "-" ++ (n + 1).repr := rfl
        rw [hrepr, String.toList_append]
        rfl
      rw [hlist]
      constructor
      · simp
      · intro c hc
        rcases List.mem_cons.mp hc with rfl | htail
        · rfl
        · exact htoken.solid c htail

/-- A padded score parses to the score. -/
theorem parseScore_padded {i : Int32} {content : String} (h : Padded (toString i.toInt) content) :
    parseScore content = .ok i := by
  rcases h with ⟨lead, trail, hlead, htrail, rfl⟩
  unfold parseScore
  rw [trim_padded hlead (token_int i.toInt) htrail, Decimal.parseI32_toString]
  rfl

/-- A padded amount of memory parses to the amount. -/
theorem parseBytes_padded {n : UInt64} {content : String} (h : Padded (toString n.toNat) content) :
    parseBytes content = .ok n := by
  rcases h with ⟨lead, trail, hlead, htrail, rfl⟩
  unfold parseBytes
  rw [trim_padded hlead (token_nat n.toNat) htrail, Decimal.parseU64_toString]
  rfl

/-- Reading undoes the decimal rendering of an unsigned number. -/
theorem parseU64_toOption (n : UInt64) :
    (Decimal.parseU64 (toString n.toNat)).toOption = some n := by
  rw [Decimal.parseU64_toString]
  rfl

/-- A padded {lit}`max` is not a number. -/
theorem parseBytes_padded_max {content : String} (h : Padded "max" content) :
    (parseBytes content).isOk = false := by
  rcases h with ⟨lead, trail, hlead, htrail, rfl⟩
  have htoken : Token "max".toList := by decide
  rw [ProcFsReader.parseBytes_max (trim_padded hlead htoken htrail)]
  rfl

/-! ## Tokens -/

/-- How averages are written. -/
structure AverageFormat (F : Type) where
  render : F → String

/-- An average can be read again: parsing undoes its writing, which has neither whitespace nor
separators in it. -/
structure AverageFormat.Writes (fmt : AverageFormat F) (x : F) : Prop where
  parse_render : F32.parse (fmt.render x) = some x
  solid : ∀ c ∈ (fmt.render x).toList, isWhitespace c = false ∧ c ≠ '='

/-- The averages over the three windows. -/
def PressureAverages.values (a : PressureAverages F) : List F :=
  [a.avg10, a.avg60, a.avg300]

def PressureData.values (d : PressureData F) : List F :=
  d.some.values ++ d.full.values

/-- All averages of the pressure on every resource. -/
def Pressure.values (p : Pressure F) : List F :=
  p.memory.values ++ p.io.values ++ p.cpu.values

/-- The text of a value. -/
def AverageFormat.value (fmt : AverageFormat F) : (key : PressureKey) → key.Value F → String
  | .avg10 | .avg60 | .avg300 => fmt.render
  | .total => fun n : UInt64 => toString n.toNat

/-- The text of a key and its value. -/
def AverageFormat.token (fmt : AverageFormat F) (a : PressureAverages F) (key : PressureKey) :
    String :=
  key.name ++ "=" ++ fmt.value key (a.field key)

section Averages

variable {fmt : AverageFormat F} {a : PressureAverages F}

theorem AverageFormat.read?_value (ha : ∀ x ∈ a.values, fmt.Writes x) (key : PressureKey) :
    key.read? (fmt.value key (a.field key)) = some (a.field key) := by
  simp only [PressureAverages.values, List.forall_mem_cons] at ha
  obtain ⟨h10, h60, h300, -⟩ := ha
  cases key with
  | avg10 => exact h10.parse_render
  | avg60 => exact h60.parse_render
  | avg300 => exact h300.parse_render
  | total => exact parseU64_toOption a.total

/-- Values have neither whitespace nor separators in them. -/
theorem AverageFormat.solid_value (ha : ∀ x ∈ a.values, fmt.Writes x) (key : PressureKey) :
    ∀ c ∈ (fmt.value key (a.field key)).toList, isWhitespace c = false ∧ c ≠ '=' := by
  simp only [PressureAverages.values, List.forall_mem_cons] at ha
  obtain ⟨h10, h60, h300, -⟩ := ha
  cases key with
  | avg10 => exact h10.solid
  | avg60 => exact h60.solid
  | avg300 => exact h300.solid
  | total => exact solid_nat a.total.toNat

/-- A rendered token is a token. -/
theorem AverageFormat.token_solid (ha : ∀ x ∈ a.values, fmt.Writes x) (key : PressureKey) :
    Token (fmt.token a key).toList := by
  have hname : Token key.name.toList := by
    cases key <;> decide
  have hvalue := solid_value ha key
  unfold AverageFormat.token
  rw [String.toList_append, String.toList_append]
  constructor
  · simp
  · intro c hc
    rcases List.mem_append.mp hc with hleft | hright
    · rcases List.mem_append.mp hleft with hkey | hsep
      · exact hname.solid c hkey
      · obtain rfl : c = '=' := by simpa using hsep
        rfl
    · exact (hvalue c hright).1

/-- A rendered token decodes to the value of its key. -/
theorem AverageFormat.decode_token (ha : ∀ x ∈ a.values, fmt.Writes x) (key : PressureKey) :
    decodePressureToken (fmt.token a key) = .ok [⟨key, a.field key⟩] := by
  have hname : '=' ∉ key.name.toList := by
    cases key <;> decide
  have hsplit : splitOn '=' (fmt.token a key) = [key.name, fmt.value key (a.field key)] := by
    rw [splitOn_eq_pair_iff]
    refine ⟨rfl, hname, ?_⟩
    intro h
    exact (solid_value ha key '=' h).2 rfl
  unfold decodePressureToken
  rw [hsplit]
  dsimp only
  rw [(PressureKey.ofName?_eq_some_iff _ key).mpr rfl]
  dsimp only
  rw [(key.parse_eq_ok_iff _ _).mpr (read?_value ha key)]
  rfl

/-- Rendered tokens in any order that has every key fill in the averages. -/
theorem AverageFormat.parse_tokens (ha : ∀ x ∈ a.values, fmt.Writes x)
    (start : PressureAverages F) {order : List PressureKey} (hall : ∀ key, key ∈ order) :
    parsePressureAverages (order.map (fmt.token a)) start = .ok a := by
  have hfold : ∀ (keys : List PressureKey) (s : PressureAverages F),
      parsePressureAverages (keys.map (fmt.token a)) s =
        .ok (PressureAverages.slots.assign s (keys.map fun key => ⟨key, a.field key⟩)) := by
    intro keys
    induction keys with
    | nil => exact fun s => rfl
    | cons key keys ih =>
        intro s
        have hstep : parsePressureToken s (fmt.token a key) =
            .ok (PressureAverages.slots.assign s [⟨key, a.field key⟩]) := by
          rw [parsePressureToken_eq, decode_token ha]
          rfl
        rw [List.map_cons, parsePressureAverages, List.foldlM_cons, hstep]
        exact ih _
  rw [hfold]
  congr 1
  apply PressureAverages.slots.ext
  intro key
  rw [Slots.get_assign]
  cases hlast : ((order.map fun key => (⟨key, a.field key⟩ : Sigma _)).lookupAll key).getLast? with
  | none =>
      rw [List.getLast?_eq_none_iff, List.lookupAll_eq_nil] at hlast
      exact absurd (List.mem_map_of_mem (hall key)) (hlast (a.field key))
  | some v =>
      have hmem := List.mem_lookupAll.mp (List.mem_of_getLast? hlast)
      rcases List.mem_map.mp hmem with ⟨key', -, heq⟩
      cases heq
      rfl

end Averages

/-! ## Lines -/

/-- How the line of a severity is laid out. -/
structure LineLayout where
  lead : String
  trail : String
  /-- The keys in their order, each with the gap before it. -/
  entries : List (String × PressureKey)
  order : (entries.map Prod.snd).Perm [.avg10, .avg60, .avg300, .total]
  blank : ∀ pad ∈ lead :: trail :: entries.map Prod.fst, Blank pad.toList ∧ '\n' ∉ pad.toList
  gaps : ∀ entry ∈ entries, entry.1 ≠ ""

/-- The characters of a line. -/
def LineLayout.chars (layout : LineLayout) (fmt : AverageFormat F) (severity : PressureSeverity)
    (a : PressureAverages F) : List Char :=
  layout.lead.toList ++ (severity.name.toList ++
    ((layout.entries.map fun e => (e.1.toList, (fmt.token a e.2).toList)).flatMap
      (fun e => e.1 ++ e.2) ++ layout.trail.toList))

/-- The words of a line are the severity and the tokens. -/
theorem LineLayout.words_chars (layout : LineLayout) {fmt : AverageFormat F}
    {a : PressureAverages F} (ha : ∀ x ∈ a.values, fmt.Writes x) (severity : PressureSeverity) :
    words (layout.chars fmt severity a) =
      severity.name.toList :: (layout.entries.map fun e => (fmt.token a e.2).toList) := by
  have hseverity : Token severity.name.toList := by
    cases severity <;> decide
  have hlead : Blank layout.lead.toList := (layout.blank layout.lead (by simp)).1
  have htrail : Blank layout.trail.toList := (layout.blank layout.trail (by simp)).1
  unfold LineLayout.chars
  rw [words_row hlead hseverity htrail, List.map_map]
  · rfl
  · intro e he
    rcases List.mem_map.mp he with ⟨entry, hentry, rfl⟩
    have hgap := layout.blank entry.1 (by simp; right; right; exact ⟨_, hentry⟩)
    refine ⟨hgap.1, ?_, AverageFormat.token_solid ha entry.2⟩
    intro hnil
    exact layout.gaps entry hentry (String.toList_eq_nil_iff.mp hnil)

/-- A line has no line feed in it. -/
theorem LineLayout.newline_notMem (layout : LineLayout) {fmt : AverageFormat F}
    {a : PressureAverages F} (ha : ∀ x ∈ a.values, fmt.Writes x) (severity : PressureSeverity) :
    '\n' ∉ layout.chars fmt severity a := by
  have hnewline : isWhitespace '\n' = true := by decide
  have hseverity : '\n' ∉ severity.name.toList := by
    cases severity <;> decide
  have hlead := (layout.blank layout.lead (by simp)).2
  have htrail := (layout.blank layout.trail (by simp)).2
  unfold LineLayout.chars
  simp only [List.mem_append, List.mem_flatMap, List.mem_map, not_or, not_exists, not_and]
  refine ⟨hlead, hseverity, ?_, htrail⟩
  rintro _ ⟨entry, hentry, rfl⟩
  constructor
  · exact (layout.blank entry.1 (by simp; right; right; exact ⟨_, hentry⟩)).2
  · intro hmem
    have hsolid := (AverageFormat.token_solid ha entry.2).solid '\n' hmem
    rw [hnewline] at hsolid
    cases hsolid

/-- The tokens of a line fill in the averages of its severity. -/
theorem LineLayout.parse_tokens (layout : LineLayout) {fmt : AverageFormat F}
    {a : PressureAverages F} (ha : ∀ x ∈ a.values, fmt.Writes x) (severity : PressureSeverity)
    (d : PressureData F) :
    parsePressureTokens d ((words (layout.chars fmt severity a)).map String.ofList) =
      .ok (d.setAverages severity a) := by
  have hall : ∀ key, key ∈ layout.entries.map Prod.snd := by
    intro key
    rw [layout.order.mem_iff]
    cases key <;> simp
  have htokens : (layout.entries.map fun e => (fmt.token a e.2).toList).map String.ofList =
      (layout.entries.map Prod.snd).map (fmt.token a) := by
    simp [Function.comp_def]
  rw [layout.words_chars ha, List.map_cons, htokens, String.ofList_toList]
  cases severity with
  | some =>
      have hparse := AverageFormat.parse_tokens ha d.some hall
      simp only [parsePressureTokens, PressureSeverity.name, hparse]
      rfl
  | full =>
      have hparse := AverageFormat.parse_tokens ha d.full hall
      simp only [parsePressureTokens, PressureSeverity.name, hparse]
      rfl

/-! ## Pressure files -/

/-- Parsing a file parses its rows of words; blank lines have no row. -/
theorem parsePressureDataFile_rows (content : String) :
    parsePressureDataFile (F := F) content =
      (rows (charLines content.toList)).foldlM
        (fun d row => parsePressureTokens d (row.map String.ofList)) default := by
  have hlines : ∀ (xs : List (List Char)) (d : PressureData F),
      (xs.map String.ofList).foldlM parsePressureLine d =
        (rows xs).foldlM (fun d row => parsePressureTokens d (row.map String.ofList)) d := by
    intro xs
    induction xs with
    | nil => exact fun d => rfl
    | cons x xs ih =>
        intro d
        have hline : parsePressureLine d (String.ofList x) =
            parsePressureTokens d ((words x).map String.ofList) := by
          unfold parsePressureLine splitWhitespace
          rw [String.toList_ofList]
        have hsplit : rows (x :: xs) = rows [x] ++ rows xs := rows_append [x] xs
        rw [List.map_cons, List.foldlM_cons, hline, hsplit, List.foldlM_append]
        cases hwords : words x with
        | nil =>
            have hrow : rows [x] = [] := by simp [rows, hwords]
            rw [hrow]
            exact ih d
        | cons w ws =>
            rw [rows_singleton hwords, List.foldlM_cons]
            cases parsePressureTokens d ((w :: ws).map String.ofList) with
            | error e => rfl
            | ok d' => exact ih d'
  exact hlines _ default

/-- How a pressure file is laid out. -/
structure PressureLayout where
  someLine : LineLayout
  fullLine : LineLayout
  /-- Whether the line of {lit}`some` comes first. -/
  someFirst : Bool
  before : List String
  between : List String
  after : List String
  blank : ∀ line ∈ before ++ between ++ after, Blank line.toList ∧ '\n' ∉ line.toList

namespace PressureLayout

/-- The lines of a file. -/
def lines (layout : PressureLayout) (fmt : AverageFormat F) (d : PressureData F) :
    List (List Char) :=
  let some := layout.someLine.chars fmt .some d.some
  let full := layout.fullLine.chars fmt .full d.full
  layout.before.map String.toList ++ [if layout.someFirst then some else full] ++
    layout.between.map String.toList ++ [if layout.someFirst then full else some] ++
    layout.after.map String.toList

/-- The content of a file. -/
def content (layout : PressureLayout) (fmt : AverageFormat F) (d : PressureData F) : String :=
  String.ofList (['\n'].intercalate (layout.lines fmt d))

/-- The blank lines of a file have no row. -/
theorem rows_blank_lines (layout : PressureLayout) (lines : List String)
    (hlines : ∀ line ∈ lines, line ∈ layout.before ++ layout.between ++ layout.after) :
    rows (lines.map String.toList) = [] := by
  apply rows_blank
  intro x hx
  rcases List.mem_map.mp hx with ⟨line, hline, rfl⟩
  exact (layout.blank line (hlines line hline)).1

/-- A file in any layout parses to the pressure it shows. -/
theorem parse_content (layout : PressureLayout) {fmt : AverageFormat F} {d : PressureData F}
    (hd : ∀ x ∈ d.values, fmt.Writes x) :
    parsePressureDataFile (layout.content fmt d) = .ok d := by
  have hsome : ∀ x ∈ d.some.values, fmt.Writes x :=
    fun x hx => hd x (List.mem_append_left _ hx)
  have hfull : ∀ x ∈ d.full.values, fmt.Writes x :=
    fun x hx => hd x (List.mem_append_right _ hx)
  have hnewline : ∀ line ∈ layout.lines fmt d, '\n' ∉ line := by
    have hblank : ∀ line ∈ layout.before ++ layout.between ++ layout.after, '\n' ∉ line.toList :=
      fun line hline => (layout.blank line hline).2
    have hsomeLine := layout.someLine.newline_notMem hsome .some
    have hfullLine := layout.fullLine.newline_notMem hfull .full
    intro line hline
    unfold lines at hline
    simp only [List.mem_append, List.mem_map, List.mem_singleton, or_assoc] at hline hblank
    rcases hline with ⟨x, hx, rfl⟩ | rfl | ⟨x, hx, rfl⟩ | rfl | ⟨x, hx, rfl⟩
    · exact hblank x (Or.inl hx)
    · split <;> assumption
    · exact hblank x (Or.inr (Or.inl hx))
    · split <;> assumption
    · exact hblank x (Or.inr (Or.inr hx))
  have hne : layout.lines fmt d ≠ [] := by simp [lines]
  have hrow : ∀ (line : LineLayout) severity a, (∀ x ∈ a.values, fmt.Writes x) →
      rows [line.chars fmt severity a] = [words (line.chars fmt severity a)] := by
    intro line severity a ha
    have hwords := line.words_chars ha severity
    rw [rows_singleton hwords, hwords]
  have hrows : rows (charLines (layout.content fmt d).toList) =
      if layout.someFirst then
        [words (layout.someLine.chars fmt .some d.some),
          words (layout.fullLine.chars fmt .full d.full)]
      else
        [words (layout.fullLine.chars fmt .full d.full),
          words (layout.someLine.chars fmt .some d.some)] := by
    unfold content
    rw [String.toList_ofList, words_lines_join hne hnewline]
    unfold lines
    simp only [rows_append]
    rw [layout.rows_blank_lines layout.before (by simp +contextual),
      layout.rows_blank_lines layout.between (by simp +contextual),
      layout.rows_blank_lines layout.after (by simp +contextual)]
    split <;> simp [hrow _ _ _ hsome, hrow _ _ _ hfull]
  rw [parsePressureDataFile_rows, hrows]
  split
  · rw [List.foldlM_cons, layout.someLine.parse_tokens hsome]
    rw [Io.ok_bind, List.foldlM_cons, layout.fullLine.parse_tokens hfull]
    rfl
  · rw [List.foldlM_cons, layout.fullLine.parse_tokens hfull]
    rw [Io.ok_bind, List.foldlM_cons, layout.someLine.parse_tokens hsome]
    rfl

end PressureLayout

/-! ## All files -/

namespace ProcFsReader

/-- The two memory files: a limit and the memory in use, or {lit}`max` when there
is no limit and then any file or none for the memory in use. -/
def RendersMemory (paths : CGroupPaths) (fs : FileSystem) (cd : CollectedData F) : Prop :=
  (∃ memoryMax memoryCurrent, Padded (toString cd.memoryMax.toNat) memoryMax ∧
    Padded (toString cd.memoryCurrent.toNat) memoryCurrent ∧
    (∀ k, fs k paths.memoryMax = .ok memoryMax) ∧
    ∀ k, fs k paths.memoryCurrent = .ok memoryCurrent) ∨
  (cd.memoryMax = 0 ∧ cd.memoryCurrent = 0 ∧
    ∃ memoryMax, Padded "max" memoryMax ∧ ∀ k, fs k paths.memoryMax = .ok memoryMax)

/-- The files of a process show {lit}`cd`, whose averages can be read again. -/
structure Renders (r : ProcFsReader) (pid : Int32) (paths : CGroupPaths)
    (fmt : AverageFormat F) (fs : FileSystem) (cd : CollectedData F) : Prop where
  oomScore : ∃ content, Padded (toString cd.oomScore.toInt) content ∧
    ∀ k, fs k (r.system.pathToOomScore pid) = .ok content
  oomScoreAdj : ∃ content, Padded (toString cd.oomScoreAdj.toInt) content ∧
    ∀ k, fs k (r.system.pathToOomScoreAdj pid) = .ok content
  memory : RendersMemory paths fs cd
  memoryPressure : ∃ layout : PressureLayout,
    ∀ k, fs k paths.memoryPressure = .ok (layout.content fmt cd.pressure.memory)
  ioPressure : ∃ layout : PressureLayout,
    ∀ k, fs k paths.ioPressure = .ok (layout.content fmt cd.pressure.io)
  cpuPressure : ∃ layout : PressureLayout,
    ∀ k, fs k paths.cpuPressure = .ok (layout.content fmt cd.pressure.cpu)
  averages : ∀ x ∈ cd.pressure.values, fmt.Writes x

/-- Rendered scores are found. -/
theorem Renders.scoresAt {r : ProcFsReader} {pid : Int32} {paths : CGroupPaths}
    {fmt : AverageFormat F} {fs : FileSystem} {cd : CollectedData F}
    (h : r.Renders pid paths fmt fs cd) (k : Nat) :
    r.ScoresAt pid fs k cd.oomScore cd.oomScoreAdj := by
  rcases h.oomScore with ⟨score, hscore, hread⟩
  rcases h.oomScoreAdj with ⟨adj, hadj, hread'⟩
  constructor
  · rw [hread, Io.ok_bind, parseScore_padded hscore]
  · rw [hread', Io.ok_bind, parseScore_padded hadj]

/-- Rendered pressure is found. -/
theorem Renders.pressureAt {r : ProcFsReader} {pid : Int32} {paths : CGroupPaths}
    {fmt : AverageFormat F} {fs : FileSystem} {cd : CollectedData F}
    (h : r.Renders pid paths fmt fs cd) (k : Nat) : PressureAt fs paths k cd.pressure := by
  rcases h.memoryPressure with ⟨memory, hmemory⟩
  rcases h.ioPressure with ⟨io, hio⟩
  rcases h.cpuPressure with ⟨cpu, hcpu⟩
  have haverages := h.averages
  unfold Pressure.values at haverages
  simp only [List.forall_mem_append] at haverages
  obtain ⟨⟨hmemoryAverages, hioAverages⟩, hcpuAverages⟩ := haverages
  constructor
  · rw [hmemory, Io.ok_bind, memory.parse_content hmemoryAverages]
  · rw [hio, Io.ok_bind, io.parse_content hioAverages]
  · rw [hcpu, Io.ok_bind, cpu.parse_content hcpuAverages]

/-- Collecting from rendered files returns what they were rendered from. -/
theorem collectProcessData_renders {r : ProcFsReader} {pid : Int32} {paths : CGroupPaths}
    {fmt : AverageFormat F} {fs : FileSystem} {cd : CollectedData F}
    (hpaths : r.system.Resolves pid fs paths) (h : r.Renders pid paths fmt fs cd) :
    ((r.collectProcessData pid).exec fs []).1 = .ok cd := by
  have hscores := h.scoresAt 0
  rcases h.memory with ⟨maximum, current, hmax, hcurrent, hread, hread'⟩ |
    ⟨hmax, hcurrent, maximum, hnone, hread⟩
  · have hparse := parseBytes_padded hmax
    have hparse' : fs 4 paths.memoryCurrent >>= parseBytes = .ok cd.memoryCurrent := by
      rw [hread', Io.ok_bind, parseBytes_padded hcurrent]
    have hsome : (parseBytes maximum).isOk = true := by
      rw [hparse]
      rfl
    rcases collectProcessData_limited hpaths hscores (hread 2) hsome (hread 3) hparse hparse'
      (h.pressureAt 5) with ⟨log, hcall, -⟩
    rw [hcall]
  · rcases collectProcessData_unlimited hpaths hscores (hread 2) (parseBytes_padded_max hnone)
      (h.pressureAt 3) with ⟨log, hcall, -⟩
    rw [hcall]
    cases cd
    simp_all

/-! ## A rendering -/

/-- Whole numbers, written in decimal. -/
def wholeFormat : AverageFormat Whole where
  render := fun n : UInt64 => toString n.toNat

/-- They can all be read again. -/
theorem wholeFormat_writes (n : Whole) : wholeFormat.Writes n where
  parse_render := parseU64_toOption n
  solid := solid_nat (UInt64.toNat n)

/-- The line the kernel writes: the tokens in order, with one blank before each. -/
def kernelLine : LineLayout where
  lead := ""
  trail := ""
  entries := [(" ", .avg10), (" ", .avg60), (" ", .avg300), (" ", .total)]
  order := List.Perm.refl _
  blank := by decide
  gaps := by decide

/-- The file the kernel writes. -/
def kernelLayout : PressureLayout where
  someLine := kernelLine
  fullLine := kernelLine
  someFirst := true
  before := []
  between := []
  after := [""]
  blank := by decide

example : kernelLayout.content wholeFormat ⟨⟨1, 2, 3, 4⟩, ⟨0, 0, 0, 0⟩⟩ =
    "some avg10=1 avg60=2 avg300=3 total=4\nfull avg10=0 avg60=0 avg300=0 total=0\n" := by
  decide +kernel

/-- A file with its lines swapped, blank lines, and tokens in another order. -/
def shuffledLayout : PressureLayout where
  someLine := kernelLine
  fullLine :=
    { lead := "\t"
      trail := " \r"
      entries := [(" \t", .total), (" ", .avg300), ("  ", .avg10), (" ", .avg60)]
      order := by decide
      blank := by decide
      gaps := by decide }
  someFirst := false
  before := ["", " "]
  between := ["\t\r"]
  after := []
  blank := by decide

/-- The files of a process, with the lines of one of them shuffled. -/
def renderedFiles (cd : CollectedData Whole) : FileSystem where
  contents := fun _ path =>
    if path = plainPaths.memoryMax then .ok ("" ++ toString cd.memoryMax.toNat ++ "\n")
    else if path = plainPaths.memoryCurrent then
      .ok (" " ++ toString cd.memoryCurrent.toNat ++ "\n")
    else if path = "/proc/7/oom_score" then .ok ("" ++ toString cd.oomScore.toInt ++ "\n")
    else if path = "/proc/7/oom_score_adj" then
      .ok ("\t" ++ toString cd.oomScoreAdj.toInt ++ "")
    else if path = plainPaths.memoryPressure then
      .ok (kernelLayout.content wholeFormat cd.pressure.memory)
    else if path = plainPaths.ioPressure then
      .ok (shuffledLayout.content wholeFormat cd.pressure.io)
    else .ok (kernelLayout.content wholeFormat cd.pressure.cpu)
  statfs := fun _ _ => .ok SystemCGroups.cgroup2SuperMagic

/-- Those files show the data. -/
theorem renderedFiles_renders (cd : CollectedData Whole) :
    plainReader.Renders 7 plainPaths wholeFormat (renderedFiles cd) cd := by
  have hscore := plainReader_scores
  constructor
  · rw [hscore.1]
    exact ⟨_, ⟨"", "\n", by decide, by decide, rfl⟩, by simp [renderedFiles, plainPaths]⟩
  · rw [hscore.2]
    exact ⟨_, ⟨"\t", "", by decide, by decide, rfl⟩, by simp [renderedFiles, plainPaths]⟩
  · exact Or.inl ⟨_, _, ⟨"", "\n", by decide, by decide, rfl⟩,
      ⟨" ", "\n", by decide, by decide, rfl⟩,
      by simp [renderedFiles], by simp [renderedFiles, plainPaths]⟩
  · exact ⟨kernelLayout, by simp [renderedFiles, plainPaths]⟩
  · exact ⟨shuffledLayout, by simp [renderedFiles, plainPaths]⟩
  · exact ⟨kernelLayout, by simp [renderedFiles, plainPaths]⟩
  · exact fun x _ => wholeFormat_writes x

/-- Twenty-eight different values. -/
def distinctData : CollectedData Whole where
  memoryMax := 1000
  memoryCurrent := 500
  oomScore := 10
  oomScoreAdj := -20
  pressure :=
    { memory := ⟨⟨1, 2, 3, 4⟩, ⟨5, 6, 7, 8⟩⟩
      io := ⟨⟨11, 12, 13, 14⟩, ⟨15, 16, 17, 18⟩⟩
      cpu := ⟨⟨21, 22, 23, 24⟩, ⟨25, 26, 27, 28⟩⟩ }

/-- Collecting from their files returns them. -/
theorem collectProcessData_distinctData :
    ((plainReader.collectProcessData (F := Whole) 7).exec (renderedFiles distinctData) []).1 =
      .ok distinctData :=
  collectProcessData_renders (plainReader_resolves fun _ _ => rfl)
    (renderedFiles_renders distinctData)

end ProcFsReader
end OomHero
