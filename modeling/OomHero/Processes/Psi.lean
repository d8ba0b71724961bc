import OomHero.Foundations.Slots
import OomHero.Foundations.Text
import OomHero.Processes.Model

/-!
# Processes - Pressure files

The parser of the pressure stall files of the kernel, such as

{lit}`some avg10=0.00 avg60=0.00 avg300=0.00 total=0`
{lit}`full avg10=0.00 avg60=0.00 avg300=0.00 total=0`

A pressure record has eight slots, one for each severity and key, and a file is
a list of assignments to them.

Main results:

- Theorem {lit}`parsePressureDataFile_eq_fill`: parsing decodes every line into
  assignments and makes them in file order.
- Theorem {lit}`parsePressureDataFile_grammar`: the parser accepts exactly its
  grammar, and the last value for a slot wins.
-/

namespace OomHero

variable {F : Type} [F32 F]

/-! ## The parser -/

/-- Parse an average. -/
def parseAverage (value : String) : Except Error F :=
  match F32.parse value with
  | some x => pure x
  | none => throw (.parseFloatError (if value.isEmpty then .empty else .invalid))

/-- Parse a total. -/
def parseTotal (value : String) : Except Error UInt64 :=
  (Decimal.parseU64 value).mapError .parseIntError

/-- Parse one token of a line.  Tokens that are not a key and a value are skipped. -/
def parsePressureToken (averages : PressureAverages F) (token : String) :
    Except Error (PressureAverages F) :=
  match Text.splitOn '=' token with
  | [key, value] =>
      match key with
      | "avg10" => do return { averages with avg10 := ← parseAverage value }
      | "avg60" => do return { averages with avg60 := ← parseAverage value }
      | "avg300" => do return { averages with avg300 := ← parseAverage value }
      | "total" => do return { averages with total := ← parseTotal value }
      | _ => throw (.message s!"unknown field {key}")
  | _ => pure averages

/-- Parse the tokens behind the severity of a line. -/
def parsePressureAverages (tokens : List String) (averages : PressureAverages F) :
    Except Error (PressureAverages F) :=
  tokens.foldlM parsePressureToken averages

/-- Parse the tokens of a line.  The first one tells which severity the others
belong to. -/
def parsePressureTokens (result : PressureData F) :
    List String → Except Error (PressureData F)
  | [] => pure result
  | severity :: tokens =>
      match severity with
      | "some" => do return { result with some := ← parsePressureAverages tokens result.some }
      | "full" => do return { result with full := ← parsePressureAverages tokens result.full }
      | other => throw (.message s!"unknown field {other}")

/-- Parse one line. -/
def parsePressureLine (result : PressureData F) (line : String) :
    Except Error (PressureData F) :=
  parsePressureTokens result (Text.splitWhitespace line)

/-- Parse the content of a pressure file. -/
def parsePressureDataFile (content : String) : Except Error (PressureData F) :=
  (Text.lines content).foldlM parsePressureLine default

/-! ## The slots of a pressure record -/

/-- The keys of a line. -/
inductive PressureKey where
  | avg10
  | avg60
  | avg300
  | total
deriving DecidableEq, Repr

/-- The severities of a file. -/
inductive PressureSeverity where
  | some
  | full
deriving DecidableEq, Repr

namespace PressureKey

/-- The text of a key. -/
def name : PressureKey → String
  | avg10 => "avg10"
  | avg60 => "avg60"
  | avg300 => "avg300"
  | total => "total"

/-- The type of the values of a key. -/
def Value (F : Type) : PressureKey → Type
  | avg10 | avg60 | avg300 => F
  | total => UInt64

/-- The value of a key a text spells, if it spells one. -/
def read? : (key : PressureKey) → String → Option (key.Value F)
  | avg10 | avg60 | avg300 => (F32.parse : String → Option F)
  | total => fun value => (Decimal.parseU64 value).toOption

/-- The parser of the values of a key. -/
def parse : (key : PressureKey) → String → Except Error (key.Value F)
  | avg10 | avg60 | avg300 => parseAverage (F := F)
  | total => parseTotal

/-- The value of a key no token sets. -/
def zero : (key : PressureKey) → key.Value F
  | avg10 | avg60 | avg300 => (0 : F)
  | total => (0 : UInt64)

/-- The key of a text. -/
def ofName? : String → Option PressureKey
  | "avg10" => some avg10
  | "avg60" => some avg60
  | "avg300" => some avg300
  | "total" => some total
  | _ => none

/-- Parsing a value succeeds with the value the text spells. -/
theorem parse_eq_ok_iff (key : PressureKey) (value : String) (v : key.Value F) :
    key.parse value = .ok v ↔ key.read? value = some v := by
  have haverage : ∀ x : F, (parseAverage value : Except Error F) = .ok x ↔
      F32.parse value = some x := by
    intro x
    unfold parseAverage
    cases (F32.parse value : Option F) <;>
      simp [pure, Except.pure, throw, throwThe, MonadExceptOf.throw]
  have htotal : ∀ x : UInt64, parseTotal value = .ok x ↔
      (Decimal.parseU64 value).toOption = some x := by
    intro x
    unfold parseTotal
    cases Decimal.parseU64 value <;> simp [Except.mapError, Except.toOption]
  cases key with
  | avg10 => exact haverage v
  | avg60 => exact haverage v
  | avg300 => exact haverage v
  | total => exact htotal v

theorem ofName?_eq_some_iff (text : String) (key : PressureKey) :
    ofName? text = some key ↔ text = key.name := by
  constructor
  · intro h
    unfold ofName? at h
    split at h <;> cases h <;> rfl
  · rintro rfl
    cases key <;> rfl

end PressureKey

namespace PressureSeverity

/-- The text of a severity. -/
def name : PressureSeverity → String
  | some => "some"
  | full => "full"

/-- The severity of a text. -/
def ofName? : String → Option PressureSeverity
  | "some" => .some some
  | "full" => .some full
  | _ => none

theorem ofName?_eq_some_iff (text : String) (severity : PressureSeverity) :
    ofName? text = .some severity ↔ text = severity.name := by
  constructor
  · intro h
    unfold ofName? at h
    split at h <;> cases h <;> rfl
  · rintro rfl
    cases severity <;> rfl

end PressureSeverity

/-- The value of one key. -/
def PressureAverages.field (a : PressureAverages F) : (key : PressureKey) → key.Value F
  | .avg10 => a.avg10
  | .avg60 => a.avg60
  | .avg300 => a.avg300
  | .total => a.total

/-- The averages of one severity. -/
def PressureData.averages (d : PressureData F) : PressureSeverity → PressureAverages F
  | .some => d.some
  | .full => d.full

/-- Replace the averages of one severity. -/
def PressureData.setAverages (d : PressureData F) :
    PressureSeverity → PressureAverages F → PressureData F
  | .some, a => { d with some := a }
  | .full, a => { d with full := a }

/-- The keys are the slots of the averages of one severity. -/
def PressureAverages.slots :
    Slots PressureKey (PressureKey.Value F) (PressureAverages F) where
  get := PressureAverages.field
  set a
    | .avg10, v => { a with avg10 := v }
    | .avg60, v => { a with avg60 := v }
    | .avg300, v => { a with avg300 := v }
    | .total, v => { a with total := v }
  get_set := by
    intro a key v
    funext key'
    cases key <;> cases key' <;> rfl
  ext := by
    intro a a' h
    have h10 := h .avg10
    have h60 := h .avg60
    have h300 := h .avg300
    have htotal := h .total
    cases a
    cases a'
    simp_all [PressureAverages.field]

/-- The type of the values of a slot. -/
abbrev SlotValue (F : Type) (slot : PressureSeverity × PressureKey) : Type :=
  slot.2.Value F

/-- The severities and keys are the slots of the pressure on a resource. -/
def PressureData.slots :
    Slots (PressureSeverity × PressureKey) (SlotValue F) (PressureData F) where
  get d slot := (d.averages slot.1).field slot.2
  set d slot v :=
    d.setAverages slot.1 (PressureAverages.slots.set (d.averages slot.1) slot.2 v)
  get_set := by
    rintro d ⟨severity, key⟩ v
    funext ⟨severity', key'⟩
    cases severity <;> cases severity' <;> cases key <;> cases key' <;> rfl
  ext := by
    intro d d' h
    have hsome := PressureAverages.slots.ext d.some d'.some fun key => h (.some, key)
    have hfull := PressureAverages.slots.ext d.full d'.full fun key => h (.full, key)
    cases d
    cases d'
    simp_all

@[simp]
theorem PressureData.slots_get_default (severity : PressureSeverity) (key : PressureKey) :
    PressureData.slots.get (default : PressureData F) (severity, key) = key.zero := by
  cases severity <;> cases key <;> rfl

/-! ## Lines as assignments -/

/-- The assignments of a token. -/
def decodePressureToken (token : String) :
    Except Error (List (Sigma (PressureKey.Value F))) :=
  match Text.splitOn '=' token with
  | [text, value] =>
      match PressureKey.ofName? text with
      | some key => (key.parse value).map fun v => [⟨key, v⟩]
      | none => throw (.message s!"unknown field {text}")
  | _ => pure []

/-- An assignment on a line of a severity. -/
def atSeverity (severity : PressureSeverity) (a : Sigma (PressureKey.Value F)) :
    Sigma (SlotValue F) :=
  ⟨(severity, a.1), a.2⟩

/-- The assignments of a line. -/
def decodePressureLine (line : String) :
    Except Error (List (Sigma (SlotValue F))) :=
  match Text.splitWhitespace line with
  | [] => pure []
  | first :: tokens =>
      match PressureSeverity.ofName? first with
      | some severity =>
          (tokens.mapM decodePressureToken).map fun ass => ass.flatten.map (atSeverity severity)
      | none => throw (.message s!"unknown field {first}")

/-- Parsing a token makes its assignments. -/
theorem parsePressureToken_eq (averages : PressureAverages F) (token : String) :
    parsePressureToken averages token =
      (decodePressureToken token).map (PressureAverages.slots.assign averages) := by
  unfold parsePressureToken decodePressureToken
  split <;> rename_i hsplit
  · unfold PressureKey.ofName?
    split
    · cases hvalue : parseAverage (F := F) _ <;> simp [PressureKey.parse, hvalue] <;> rfl
    · cases hvalue : parseAverage (F := F) _ <;> simp [PressureKey.parse, hvalue] <;> rfl
    · cases hvalue : parseAverage (F := F) _ <;> simp [PressureKey.parse, hvalue] <;> rfl
    · cases hvalue : parseTotal _ <;> simp [PressureKey.parse, hvalue] <;> rfl
    · simp
      rfl
  · rfl

omit [F32 F] in
/-- The assignments on a line of a severity change the averages of it only. -/
theorem assign_atSeverity (severity : PressureSeverity) (d : PressureData F)
    (as : List (Sigma (PressureKey.Value F))) :
    PressureData.slots.assign d (as.map (atSeverity severity)) =
      d.setAverages severity (PressureAverages.slots.assign (d.averages severity) as) := by
  induction as generalizing d with
  | nil => cases severity <;> rfl
  | cons a as ih =>
      have htail := ih (d.setAverages severity
        (PressureAverages.slots.set (d.averages severity) a.1 a.2))
      cases severity <;> exact htail

/-- Parsing a line makes its assignments. -/
theorem parsePressureLine_eq (d : PressureData F) (line : String) :
    parsePressureLine d line =
      (decodePressureLine line).map (PressureData.slots.assign d) := by
  have htokens : ∀ (tokens : List String) (averages : PressureAverages F),
      parsePressureAverages tokens averages = (tokens.mapM decodePressureToken).map
        fun ass => PressureAverages.slots.assign averages ass.flatten := by
    intro tokens averages
    rw [← Slots.fill_eq]
    unfold parsePressureAverages Slots.fill
    congr 1
    funext s token
    exact parsePressureToken_eq s token
  unfold parsePressureLine parsePressureTokens decodePressureLine
  split <;> rename_i hwords
  · rfl
  · unfold PressureSeverity.ofName?
    split
    · simp only [htokens]
      cases htok : List.mapM (decodePressureToken (F := F)) _ with
      | error e => rfl
      | ok ass => exact congrArg Except.ok (assign_atSeverity .some d ass.flatten).symm
    · simp only [htokens]
      cases htok : List.mapM (decodePressureToken (F := F)) _ with
      | error e => rfl
      | ok ass => exact congrArg Except.ok (assign_atSeverity .full d ass.flatten).symm
    · simp
      rfl

/-- Parsing a file fills a zero record from the lines. -/
theorem parsePressureDataFile_eq_fill (content : String) :
    parsePressureDataFile (F := F) content =
      PressureData.slots.fill decodePressureLine default (Text.lines content) := by
  unfold parsePressureDataFile Slots.fill
  congr 1
  funext d line
  exact parsePressureLine_eq d line

/-! ## The grammar -/

/-- A token with exactly one {lit}`=` has a key and a value of the key around it. -/
def WellFormedToken (F : Type) [F32 F] (token : String) : Prop :=
  ∀ text value, token = text ++ "=" ++ value → '=' ∉ text.toList → '=' ∉ value.toList →
    ∃ key : PressureKey, text = key.name ∧ ∃ v : key.Value F, key.read? value = some v

/-- A line that is not blank has a severity and well formed tokens behind it. -/
def WellFormedLine (F : Type) [F32 F] (line : String) : Prop :=
  ∀ first tokens, Text.splitWhitespace line = first :: tokens →
    (∃ severity : PressureSeverity, first = severity.name) ∧
      ∀ token ∈ tokens, WellFormedToken F token

/-- The value a token gives to a key. -/
def tokenValue (key : PressureKey) (token : String) : Option String :=
  match Text.splitOn '=' token with
  | [text, value] => if text = key.name then some value else none
  | _ => none

/-- The values a line gives to a key of a severity. -/
def lineValues (severity : PressureSeverity) (key : PressureKey) (line : String) :
    List String :=
  match Text.splitWhitespace line with
  | [] => []
  | first :: tokens => if first = severity.name then tokens.filterMap (tokenValue key) else []

/-- The lines of a severity. -/
def severityLines (severity : PressureSeverity) (content : String) : List String :=
  (Text.lines content).filter fun line =>
    (Text.splitWhitespace line).head? = some severity.name

/-- The values a file gives to a key of a severity, in file order. -/
def fileValues (severity : PressureSeverity) (key : PressureKey) (content : String) :
    List String :=
  (Text.lines content).flatMap (lineValues severity key)

/-- Decoding a token succeeds exactly on well formed tokens. -/
theorem decodePressureToken_ok_iff (token : String) :
    (∃ as, decodePressureToken (F := F) token = .ok as) ↔ WellFormedToken F token := by
  have hsplit : ∀ text value, Text.splitOn '=' token = [text, value] ↔
      token = text ++ "=" ++ value ∧ '=' ∉ text.toList ∧ '=' ∉ value.toList :=
    Text.splitOn_eq_pair_iff '=' token
  unfold decodePressureToken
  split <;> rename_i hpair
  · rename_i text value
    have hparts := (hsplit text value).mp hpair
    constructor
    · rintro ⟨as, has⟩ text' value' htoken ht hv
      have hsame := (hsplit text' value').mpr ⟨htoken, ht, hv⟩
      rw [hpair] at hsame
      cases hsame
      cases hkey : PressureKey.ofName? text with
      | none =>
          rw [hkey] at has
          cases has
      | some key =>
          refine ⟨key, (PressureKey.ofName?_eq_some_iff text key).mp hkey, ?_⟩
          rw [hkey] at has
          dsimp only at has
          cases hvalue : key.parse (F := F) value with
          | error e =>
              rw [hvalue] at has
              cases has
          | ok v => exact ⟨v, (key.parse_eq_ok_iff value v).mp hvalue⟩
    · intro h
      rcases h text value hparts.1 hparts.2.1 hparts.2.2 with ⟨key, htext, v, hv⟩
      rw [(PressureKey.ofName?_eq_some_iff text key).mpr htext]
      dsimp only
      rw [(key.parse_eq_ok_iff value v).mpr hv]
      exact ⟨_, rfl⟩
  · constructor
    · intro _ text value htoken ht hv
      exact absurd ((hsplit text value).mpr ⟨htoken, ht, hv⟩) (hpair text value)
    · intro _
      exact ⟨_, rfl⟩

/-- Decoding a line succeeds exactly on well formed lines. -/
theorem decodePressureLine_ok_iff (line : String) :
    (∃ as, decodePressureLine (F := F) line = .ok as) ↔ WellFormedLine F line := by
  unfold decodePressureLine WellFormedLine
  cases Text.splitWhitespace line with
  | nil =>
      constructor
      · intro _ first tokens h
        cases h
      · intro _
        exact ⟨_, rfl⟩
  | cons first tokens =>
      have htokens : (∃ ass, tokens.mapM (decodePressureToken (F := F)) = .ok ass) ↔
          ∀ token ∈ tokens, WellFormedToken F token := by
        rw [Slots.mapM_ok_iff]
        exact forall₂_congr fun token _ => decodePressureToken_ok_iff token
      dsimp only
      constructor
      · rintro ⟨as, has⟩ first' tokens' hcons
        cases hcons
        cases hseverity : PressureSeverity.ofName? first with
        | none =>
            rw [hseverity] at has
            cases has
        | some severity =>
            refine ⟨⟨severity, (PressureSeverity.ofName?_eq_some_iff first severity).mp
              hseverity⟩, htokens.mp ?_⟩
            rw [hseverity] at has
            dsimp only at has
            cases hmap : tokens.mapM (decodePressureToken (F := F)) with
            | error e =>
                rw [hmap] at has
                cases has
            | ok ass => exact ⟨ass, rfl⟩
      · intro h
        rcases h first tokens rfl with ⟨⟨severity, hfirst⟩, hall⟩
        rcases htokens.mpr hall with ⟨ass, hass⟩
        rw [(PressureSeverity.ofName?_eq_some_iff first severity).mpr hfirst, hass]
        exact ⟨_, rfl⟩

/-- The values a token assigns to a key are those its text gives to it. -/
theorem decodePressureToken_values (key : PressureKey) (token : String)
    (as : List (Sigma (PressureKey.Value F))) (h : decodePressureToken token = .ok as) :
    (tokenValue key token).toList.map key.read? = (as.lookupAll key).map some := by
  unfold decodePressureToken at h
  unfold tokenValue
  split at h <;> rename_i hpair
  · rename_i text value
    cases hkey : PressureKey.ofName? text with
    | none =>
        rw [hkey] at h
        cases h
    | some key' =>
        have htext := (PressureKey.ofName?_eq_some_iff text key').mp hkey
        rw [hkey] at h
        dsimp only at h
        cases hvalue : key'.parse (F := F) value with
        | error e =>
            rw [hvalue] at h
            cases h
        | ok v =>
            rw [hvalue] at h
            obtain rfl : [⟨key', v⟩] = as := by
              cases h
              rfl
            have hread := (key'.parse_eq_ok_iff value v).mp hvalue
            by_cases hk : key = key'
            · subst hk
              simp [htext, hread, List.lookupAll_cons_eq]
            · have hname : text ≠ key.name := by
                intro htext'
                have hkey' := (PressureKey.ofName?_eq_some_iff text key).mpr htext'
                rw [hkey] at hkey'
                cases hkey'
                exact hk rfl
              simp [hname, List.lookupAll_cons_ne _ (⟨key', v⟩ : Sigma _) hk]
  · cases h
    simp

omit [F32 F] in
/-- The values of a slot among the assignments on a line of a severity. -/
theorem lookupAll_atSeverity (severity severity' : PressureSeverity) (key : PressureKey)
    (as : List (Sigma (PressureKey.Value F))) :
    (as.map (atSeverity severity')).lookupAll (severity, key) =
      if severity' = severity then as.lookupAll key else [] := by
  induction as with
  | nil => simp
  | cons a as ih =>
      rcases a with ⟨key', v⟩
      rw [List.map_cons]
      by_cases hs : severity' = severity
      · subst hs
        rw [if_pos rfl] at ih ⊢
        by_cases hk : key = key'
        · subst hk
          rw [List.lookupAll_cons_eq, ← ih]
          exact List.lookupAll_cons_eq (β := SlotValue F) _ (severity', key) v
        · rw [List.lookupAll_cons_ne _ ⟨key', v⟩ hk, ← ih]
          exact List.lookupAll_cons_ne _ (atSeverity severity' ⟨key', v⟩)
            fun h => hk (congrArg Prod.snd h)
      · rw [if_neg hs] at ih ⊢
        rw [← ih]
        exact List.lookupAll_cons_ne _ (atSeverity severity' ⟨key', v⟩)
          fun h => hs (congrArg Prod.fst h).symm

/-- The values a line assigns to a slot are those its text gives to it. -/
theorem decodePressureLine_values (severity : PressureSeverity) (key : PressureKey)
    (line : String) (as : List (Sigma (SlotValue F)))
    (h : decodePressureLine line = .ok as) :
    (lineValues severity key line).map key.read? = (as.lookupAll (severity, key)).map some := by
  unfold decodePressureLine at h
  unfold lineValues
  split at h <;> rename_i hwords
  · cases h
    rfl
  · rename_i first tokens
    cases hseverity : PressureSeverity.ofName? first with
    | none =>
        rw [hseverity] at h
        cases h
    | some severity' =>
        have hfirst := (PressureSeverity.ofName?_eq_some_iff first severity').mp hseverity
        rw [hseverity] at h
        dsimp only at h
        cases hmap : tokens.mapM (decodePressureToken (F := F)) with
        | error e =>
            rw [hmap] at h
            cases h
        | ok ass =>
            rw [hmap] at h
            obtain rfl : ass.flatten.map (atSeverity severity') = as := by
              cases h
              rfl
            rw [lookupAll_atSeverity]
            by_cases hs : severity' = severity
            · subst hs
              have hvalues := Slots.lookupAll_mapM (decodePressureToken_values key) hmap
              rw [if_pos rfl, ← hvalues]
              simp [hfirst, List.filterMap_eq_flatMap_toList]
            · have hname : first ≠ severity.name := by
                intro hfirst'
                have hseverity' := (PressureSeverity.ofName?_eq_some_iff first severity).mpr hfirst'
                rw [hseverity] at hseverity'
                cases hseverity'
                exact hs rfl
              simp [hs, hname]

/-- A parsed slot holds the last value the file gives to it. -/
theorem parsePressureDataFile_field {content : String} {d : PressureData F}
    (h : parsePressureDataFile content = .ok d) (severity : PressureSeverity)
    (key : PressureKey) :
    ((fileValues severity key content).getLast?.map key.read?).getD (some key.zero) =
      some ((d.averages severity).field key) := by
  rw [parsePressureDataFile_eq_fill, Slots.fill_eq] at h
  cases hmap : (Text.lines content).mapM (decodePressureLine (F := F)) with
  | error e =>
      rw [hmap] at h
      cases h
  | ok ass =>
      have hvalues := Slots.lookupAll_mapM (k := (severity, key))
        (decodePressureLine_values severity key) hmap
      have hget := PressureData.slots.get_assign default ass.flatten (severity, key)
      rw [hmap] at h
      cases h
      have hfield : (((PressureData.slots.assign default ass.flatten).averages severity).field key :
          key.Value F) = (ass.flatten.lookupAll (severity, key)).getLast?.getD key.zero := by
        rw [← PressureData.slots_get_default severity key]
        exact hget
      rw [hfield, ← List.getLast?_map]
      unfold fileValues
      rw [hvalues, List.getLast?_map]
      cases (ass.flatten.lookupAll (severity, key)).getLast? <;> rfl

/-- The values of a slot depend on the lines of its severity only. -/
theorem fileValues_eq_severityLines (severity : PressureSeverity) (key : PressureKey)
    (content : String) :
    fileValues severity key content =
      (severityLines severity content).flatMap (lineValues severity key) := by
  unfold fileValues severityLines
  induction Text.lines content with
  | nil => rfl
  | cons line rest ih =>
      rw [List.flatMap_cons, List.filter_cons, ih]
      split <;> rename_i hhead
      · rw [List.flatMap_cons]
      · have hnone : lineValues severity key line = [] := by
          unfold lineValues
          cases hwords : Text.splitWhitespace line with
          | nil => rfl
          | cons first tokens =>
              rw [hwords] at hhead
              simpa using fun h => absurd h (by simpa using hhead)
        rw [hnone, List.nil_append]

/-- The parser accepts exactly its grammar, the last value for a slot wins, and
the lines of one severity never affect the other. -/
theorem parsePressureDataFile_grammar (F : Type) [F32 F] (content : String) :
    ((∃ d : PressureData F, parsePressureDataFile content = .ok d) ↔
      ∀ line ∈ Text.lines content, WellFormedLine F line) ∧
    (∀ d : PressureData F, parsePressureDataFile content = .ok d →
      ∀ (severity : PressureSeverity) (key : PressureKey),
        match (fileValues severity key content).getLast? with
        | some value => key.read? value = some ((d.averages severity).field key)
        | none => (d.averages severity).field key = key.zero) ∧
    (∀ (content' : String) (d d' : PressureData F) (severity : PressureSeverity),
      parsePressureDataFile content = .ok d → parsePressureDataFile content' = .ok d' →
      severityLines severity content = severityLines severity content' →
        d.averages severity = d'.averages severity) := by
  refine ⟨?_, ?_, ?_⟩
  · rw [parsePressureDataFile_eq_fill, Slots.fill_ok_iff]
    exact forall₂_congr fun line _ => decodePressureLine_ok_iff line
  · intro d hd severity key
    have hfield := parsePressureDataFile_field hd severity key
    split <;> rename_i hlast
    · rw [hlast] at hfield
      exact hfield
    · rw [hlast] at hfield
      exact (Option.some.inj hfield).symm
  · intro content' d d' severity hd hd' hlines
    apply PressureAverages.slots.ext
    intro key
    have hfield := parsePressureDataFile_field hd severity key
    have hfield' := parsePressureDataFile_field hd' severity key
    rw [fileValues_eq_severityLines, hlines, ← fileValues_eq_severityLines, hfield'] at hfield
    exact (Option.some.inj hfield).symm

end OomHero
