import MuStrategy.Lib.JsonIndent
import MuStrategy.Research.CandidateConclusions

/-!
# The text of a conclusion index

* `CandidateConclusionIndex.toJson` — the indented text; `CandidateConclusionIndex.fromJson` — its reader.
* `fromJson_toJson` — an index is read back as it was written.
* `quiet_fromDict` — whatever a payload is, it is read or refused.
-/

namespace MuStrategy.Research

open Lib

/-! ## Readers of fields -/

/-- Source: `research/candidate_conclusions.py` `_require_exact_keys`. -/
def requireExactKeys (payload : JsonValue) (expected : List String) (label : String) : Except ConclusionError Unit :=
  require (payload.hasFields expected) (.keys label expected)

/-- Source: `research/candidate_conclusions.py` `_require_text`. -/
def requireText (payload : JsonValue) (fieldName : String) : Except ConclusionError String := do
  let value ← orThrow ((payload.get? fieldName).bind Json.str?) (.contract (fieldName ++ " must be non-empty text"))
  require (value ≠ "") (.contract (fieldName ++ " must be non-empty text"))
  pure value

/-- Source: `research/candidate_conclusions.py` `_require_int`. -/
def requireInt (payload : JsonValue) (fieldName : String) : Except ConclusionError ℤ :=
  orThrow ((payload.get? fieldName).bind Json.int?) (.contract (fieldName ++ " must be an integer"))

/-- A field that is a list. -/
def requireList (payload : JsonValue) (fieldName : String) : Except ConclusionError (List JsonValue) :=
  match payload.get? fieldName with
  | some (.arr items) => pure items
  | _ => throw (.contract (fieldName ++ " must be a list"))

/-- Source: `research/candidate_conclusions.py` `_require_int_tuple`. -/
def requireIntTuple (payload : JsonValue) (fieldName : String) : Except ConclusionError (List ℤ) := do
  let values ← requireList payload fieldName
  values.mapM fun value => orThrow value.int? (.contract (fieldName ++ " values must be integers"))

section fields

variable {payload : JsonValue} {key text : String}

lemma requireText_of_get (h : payload.get? key = some (.str text)) (hne : text ≠ "") :
    requireText payload key = .ok text := by
  rw [requireText, h, Option.bind_some, Json.str?_str, orThrow_some, ok_bind, decide_eq_true hne, require_true, ok_bind]
  rfl

lemma requireInt_of_get {n : ℤ} (h : payload.get? key = some (.int n)) : requireInt payload key = .ok n := by
  rw [requireInt, h]
  rfl

lemma requireList_of_get {items : List JsonValue} (h : payload.get? key = some (.arr items)) :
    requireList payload key = .ok items := by
  rw [requireList, h]
  rfl

lemma requireIntTuple_of_get {ns : List ℤ} (h : payload.get? key = some (.arr (ns.map .int))) :
    requireIntTuple payload key = .ok ns := by
  rw [requireIntTuple, requireList_of_get h, ok_bind]
  clear h
  induction ns with
  | nil => rfl
  | cons n ns ih =>
      rw [List.map_cons, List.mapM_cons, ih]
      rfl

/-- Reading what was written of a list. -/
lemma mapM_read {α : Type} {read : JsonValue → Except ConclusionError α} {write : α → JsonValue}
    (h : ∀ a, read (write a) = .ok a) (xs : List α) : (xs.map write).mapM read = .ok xs := by
  induction xs with
  | nil => rfl
  | cons x xs ih =>
      rw [List.map_cons, List.mapM_cons, h, ok_bind, ih]
      rfl

lemma quiet_requireExactKeys {expected : List String} {label : String} :
    Quiet Contractual (requireExactKeys payload expected label) := quiet_require (by rintro ⟨⟩)

lemma quiet_requireText : Quiet Contractual (requireText payload key) :=
  quiet_bind (quiet_orThrow (contractual_contract _)) fun _ _ => quiet_bind quiet_check fun _ _ => quiet_ok

lemma quiet_requireInt : Quiet Contractual (requireInt payload key) := quiet_orThrow (contractual_contract _)

lemma quiet_requireList : Quiet Contractual (requireList payload key) := by
  unfold requireList
  split
  · exact quiet_ok
  · exact quiet_error (contractual_contract _)

lemma quiet_mapM {α : Type} {read : JsonValue → Except ConclusionError α} (h : ∀ value, Quiet Contractual (read value))
    (values : List JsonValue) : Quiet Contractual (values.mapM read) := by
  induction values with
  | nil => exact quiet_ok
  | cons value values ih =>
      rw [List.mapM_cons]
      exact quiet_bind (h value) fun _ _ => quiet_bind ih fun _ _ => quiet_ok

lemma quiet_requireIntTuple : Quiet Contractual (requireIntTuple payload key) :=
  quiet_bind quiet_requireList fun _ _ => quiet_mapM (fun _ => quiet_orThrow (contractual_contract _)) _

lemma quiet_construct {φ ρ : Type} {check : φ → Except ConclusionError Unit} {make : ∀ f, check f = .ok () → ρ} {f : φ}
    (h : Quiet Contractual (check f)) : Quiet Contractual (construct check make f) := by
  unfold construct
  split
  · exact quiet_ok
  · rename_i e he
    exact h.of_error he

end fields

/-! ## Stress cells -/

/-- Source: `research/candidate_conclusions.py` `StressCellReturn.to_dict`. -/
def StressCellFields.toDict (f : StressCellFields) : JsonValue :=
  .obj [("fee_bps_per_side", .int f.feeBpsPerSide), ("slippage_ticks", .int f.slippageTicks),
    ("total_return_pct", .str f.totalReturnPct)]

/-- The keys of a cell. -/
def stressCellKeys : List String := ["fee_bps_per_side", "slippage_ticks", "total_return_pct"]

/-- Source: `research/candidate_conclusions.py` `StressCellReturn.from_dict`. -/
def StressCellReturn.fromDict (payload : JsonValue) : Except ConclusionError StressCellReturn := do
  requireExactKeys payload stressCellKeys "stress cell return"
  let feeBpsPerSide ← requireInt payload "fee_bps_per_side"
  let slippageTicks ← requireInt payload "slippage_ticks"
  let totalReturnPct ← requireText payload "total_return_pct"
  construct StressCellFields.postInit StressCellReturn.mk ⟨feeBpsPerSide, slippageTicks, totalReturnPct⟩

lemma StressCellReturn.totalReturnPct_ne (cell : StressCellReturn) : cell.totalReturnPct ≠ "" := by
  obtain ⟨_, -, h⟩ := bind_eq_ok.mp cell.valid
  obtain ⟨_, h, -⟩ := bind_eq_ok.mp h
  exact of_decide_eq_true (require_eq_ok.mp h)

lemma StressCellReturn.fromDict_toDict (cell : StressCellReturn) :
    fromDict cell.toStressCellFields.toDict = .ok cell := by
  have hkeys : requireExactKeys cell.toStressCellFields.toDict stressCellKeys "stress cell return" = .ok () := rfl
  rw [fromDict, hkeys, ok_bind, requireInt_of_get rfl, ok_bind, requireInt_of_get rfl, ok_bind,
    requireText_of_get rfl cell.totalReturnPct_ne, ok_bind]
  exact construct_eq_ok cell.valid

lemma quiet_stressCell_fromDict (payload : JsonValue) : Quiet Contractual (StressCellReturn.fromDict payload) :=
  quiet_bind quiet_requireExactKeys fun _ _ => quiet_bind quiet_requireInt fun _ _ => quiet_bind quiet_requireInt
    fun _ _ => quiet_bind quiet_requireText fun _ _ => quiet_construct (quiet_stressCell _)

/-! ## Costs -/

/-- Source: `research/candidate_conclusions.py` `FeeAssumption.to_dict`. -/
def FeeAssumptionFields.toDict (f : FeeAssumptionFields) : JsonValue :=
  .obj [("default_fee_bps_per_side", .int f.defaultFeeBpsPerSide),
    ("fee_grid_bps_per_side", .arr (f.feeGridBpsPerSide.map .int)),
    ("slippage_grid_ticks", .arr (f.slippageGridTicks.map .int)), ("tick_size", .str f.tickSize)]

/-- The keys of the costs. -/
def feeAssumptionKeys : List String :=
  ["default_fee_bps_per_side", "fee_grid_bps_per_side", "slippage_grid_ticks", "tick_size"]

/-- Source: `research/candidate_conclusions.py` `FeeAssumption.from_dict`. -/
def FeeAssumption.fromDict (payload : JsonValue) : Except ConclusionError FeeAssumption := do
  requireExactKeys payload feeAssumptionKeys "fee_assumption"
  let defaultFeeBpsPerSide ← requireInt payload "default_fee_bps_per_side"
  let feeGridBpsPerSide ← requireIntTuple payload "fee_grid_bps_per_side"
  let slippageGridTicks ← requireIntTuple payload "slippage_grid_ticks"
  let tickSize ← requireText payload "tick_size"
  construct FeeAssumptionFields.postInit FeeAssumption.mk
    ⟨defaultFeeBpsPerSide, feeGridBpsPerSide, slippageGridTicks, tickSize⟩

lemma FeeAssumption.tickSize_ne (fees : FeeAssumption) : fees.tickSize ≠ "" := by
  have h := fees.valid
  simp only [FeeAssumptionFields.postInit, bind_eq_ok, requiredField, require_eq_ok, exists_const] at h
  exact of_decide_eq_true h.2.2.2.2.2.1

lemma FeeAssumption.fromDict_toDict (fees : FeeAssumption) : fromDict fees.toFeeAssumptionFields.toDict = .ok fees := by
  have hkeys : requireExactKeys fees.toFeeAssumptionFields.toDict feeAssumptionKeys "fee_assumption" = .ok () := rfl
  rw [fromDict, hkeys, ok_bind, requireInt_of_get rfl, ok_bind, requireIntTuple_of_get rfl, ok_bind,
    requireIntTuple_of_get rfl, ok_bind, requireText_of_get rfl fees.tickSize_ne, ok_bind]
  exact construct_eq_ok fees.valid

lemma quiet_feeAssumption_fromDict (payload : JsonValue) : Quiet Contractual (FeeAssumption.fromDict payload) :=
  quiet_bind quiet_requireExactKeys fun _ _ => quiet_bind quiet_requireInt fun _ _ => quiet_bind quiet_requireIntTuple
    fun _ _ => quiet_bind quiet_requireIntTuple fun _ _ => quiet_bind quiet_requireText
    fun _ _ => quiet_construct (quiet_feeAssumption _)

/-! ## Candidates -/

/-- Source: `research/candidate_conclusions.py` `CandidateRobustness.to_dict`. -/
def RobustnessFields.toDict (f : RobustnessFields) : JsonValue :=
  .obj [("candidate_id", .str f.candidateId), ("total_return_pct", .str f.totalReturnPct),
    ("max_drawdown_pct", .str f.maxDrawdownPct), ("trade_count", .int f.tradeCount), ("win_rate", .str f.winRate),
    ("top_n", .int f.topN), ("top_n_trade_concentration", .optStr f.topNTradeConcentration),
    ("stress_grid_returns", .arr (f.stressGridReturns.map fun cell => cell.toStressCellFields.toDict)),
    ("survives_stress_grid", .bool f.survivesStressGrid)]

/-- The keys of the metrics of a candidate. -/
def robustnessKeys : List String :=
  ["candidate_id", "total_return_pct", "max_drawdown_pct", "trade_count", "win_rate", "top_n",
    "top_n_trade_concentration", "stress_grid_returns", "survives_stress_grid"]

/-- A text or null. -/
def readOptionalText (payload : JsonValue) (fieldName : String) : Except ConclusionError (Option String) :=
  match payload.get? fieldName with
  | some .null => pure none
  | some (.str text) => pure (some text)
  | _ => throw (.contract (fieldName ++ " must be text or null"))

/-- A boolean. -/
def readBool (payload : JsonValue) (fieldName : String) : Except ConclusionError Bool :=
  match payload.get? fieldName with
  | some (.bool b) => pure b
  | _ => throw (.contract (fieldName ++ " must be a boolean"))

/-- Source: `research/candidate_conclusions.py` `CandidateRobustness.from_dict`. -/
def CandidateRobustness.fromDict (payload : JsonValue) : Except ConclusionError CandidateRobustness := do
  requireExactKeys payload robustnessKeys "robustness metric"
  let topNTradeConcentration ← readOptionalText payload "top_n_trade_concentration"
  let survivesStressGrid ← readBool payload "survives_stress_grid"
  let cells ← requireList payload "stress_grid_returns"
  let candidateId ← requireText payload "candidate_id"
  let totalReturnPct ← requireText payload "total_return_pct"
  let maxDrawdownPct ← requireText payload "max_drawdown_pct"
  let tradeCount ← requireInt payload "trade_count"
  let winRate ← requireText payload "win_rate"
  let topN ← requireInt payload "top_n"
  let stressGridReturns ← cells.mapM StressCellReturn.fromDict
  construct RobustnessFields.postInit CandidateRobustness.mk
    { candidateId, totalReturnPct, maxDrawdownPct, tradeCount, winRate, topN, topNTradeConcentration, stressGridReturns,
      survivesStressGrid }

lemma readOptionalText_optStr {payload : JsonValue} {key : String} {text : Option String}
    (h : payload.get? key = some (.optStr text)) : readOptionalText payload key = .ok text := by
  rw [readOptionalText, h]
  cases text <;> rfl

lemma readBool_of_get {payload : JsonValue} {key : String} {b : Bool} (h : payload.get? key = some (.bool b)) :
    readBool payload key = .ok b := by
  rw [readBool, h]
  rfl

/-- The texts of a candidate are not empty. -/
lemma CandidateRobustness.texts_ne (metric : CandidateRobustness) : metric.candidateId ≠ "" ∧
    metric.totalReturnPct ≠ "" ∧ metric.maxDrawdownPct ≠ "" ∧ metric.winRate ≠ "" := by
  obtain ⟨_, hmetrics, -⟩ := bind_eq_ok.mp metric.valid
  obtain ⟨_, hfields, -⟩ := bind_eq_ok.mp hmetrics
  have hall := forEach_eq_ok.mp hfields
  simpa [requiredField] using hall

lemma CandidateRobustness.fromDict_toDict (metric : CandidateRobustness) :
    fromDict metric.toRobustnessFields.toDict = .ok metric := by
  have hkeys : requireExactKeys metric.toRobustnessFields.toDict robustnessKeys "robustness metric" = .ok () := rfl
  obtain ⟨hid, hreturn, hdrawdown, hrate⟩ := metric.texts_ne
  rw [fromDict, hkeys, ok_bind, readOptionalText_optStr rfl, ok_bind, readBool_of_get rfl, ok_bind,
    requireList_of_get rfl, ok_bind, requireText_of_get rfl hid, ok_bind, requireText_of_get rfl hreturn, ok_bind,
    requireText_of_get rfl hdrawdown, ok_bind, requireInt_of_get rfl, ok_bind, requireText_of_get rfl hrate, ok_bind,
    requireInt_of_get rfl, ok_bind, mapM_read StressCellReturn.fromDict_toDict, ok_bind]
  exact construct_eq_ok metric.valid

lemma quiet_robustness_fromDict (payload : JsonValue) : Quiet Contractual (CandidateRobustness.fromDict payload) := by
  refine quiet_bind quiet_requireExactKeys fun _ _ => quiet_bind ?_ fun _ _ => quiet_bind ?_ fun _ _ =>
    quiet_bind quiet_requireList fun _ _ => quiet_bind quiet_requireText fun _ _ => quiet_bind quiet_requireText
    fun _ _ => quiet_bind quiet_requireText fun _ _ => quiet_bind quiet_requireInt fun _ _ =>
    quiet_bind quiet_requireText fun _ _ => quiet_bind quiet_requireInt fun _ _ =>
    quiet_bind (quiet_mapM quiet_stressCell_fromDict _) fun _ _ => quiet_construct (RobustnessFields.quiet_postInit _)
  · unfold readOptionalText
    split
    · exact quiet_ok
    · exact quiet_ok
    · exact quiet_error (contractual_contract _)
  · unfold readBool
    split
    · exact quiet_ok
    · exact quiet_error (contractual_contract _)

/-! ## Families -/

/-- Source: `research/candidate_conclusions.py` `CandidateConclusion.to_dict`. -/
def ConclusionFields.toDict (f : ConclusionFields) : JsonValue :=
  .obj [("family", .str f.family), ("source", .str f.source), ("protocol_version", .str f.protocolVersion),
    ("fee_assumption", f.feeAssumption.toFeeAssumptionFields.toDict),
    ("robustness_metrics", .arr (f.robustnessMetrics.map fun metric => metric.toRobustnessFields.toDict)),
    ("status", .str (PyEnum.value f.status))]

/-- The keys of a conclusion. -/
def conclusionKeys : List String :=
  ["family", "source", "protocol_version", "fee_assumption", "robustness_metrics", "status"]

/-- Source: `research/candidate_conclusions.py` `CandidateConclusion.from_dict`. -/
def CandidateConclusion.fromDict (payload : JsonValue) : Except ConclusionError CandidateConclusion := do
  requireExactKeys payload conclusionKeys "conclusion entry"
  let rawStatus ← requireText payload "status"
  let status ← orThrow (PyEnum.ofValue? rawStatus) (.contract ("unsupported candidate status: " ++ rawStatus))
  let metrics ← requireList payload "robustness_metrics"
  let family ← requireText payload "family"
  let source ← requireText payload "source"
  let protocolVersion ← requireText payload "protocol_version"
  let feeAssumption ← FeeAssumption.fromDict ((payload.get? "fee_assumption").getD .null)
  let robustnessMetrics ← metrics.mapM CandidateRobustness.fromDict
  construct ConclusionFields.postInit CandidateConclusion.mk
    { family, source, protocolVersion, feeAssumption, robustnessMetrics, status }

lemma CandidateConclusion.texts_ne (conclusion : CandidateConclusion) : conclusion.family ≠ "" ∧
    conclusion.source ≠ "" ∧ conclusion.protocolVersion ≠ "" := by
  obtain ⟨_, hfields, -⟩ := bind_eq_ok.mp conclusion.valid
  have hall := forEach_eq_ok.mp hfields
  simpa [requiredField] using hall

lemma CandidateConclusion.fromDict_toDict (conclusion : CandidateConclusion) :
    fromDict conclusion.toConclusionFields.toDict = .ok conclusion := by
  have hkeys : requireExactKeys conclusion.toConclusionFields.toDict conclusionKeys "conclusion entry" = .ok () := rfl
  have hstatus : PyEnum.value conclusion.status ≠ "" := by cases conclusion.status <;> decide
  have hfees : (conclusion.toConclusionFields.toDict.get? "fee_assumption").getD .null =
    conclusion.feeAssumption.toFeeAssumptionFields.toDict := rfl
  obtain ⟨hfamily, hsource, hprotocol⟩ := conclusion.texts_ne
  rw [fromDict, hkeys, ok_bind, requireText_of_get rfl hstatus, ok_bind, PyEnum.ofValue?_value, orThrow_some, ok_bind,
    requireList_of_get rfl, ok_bind, requireText_of_get rfl hfamily, ok_bind, requireText_of_get rfl hsource, ok_bind,
    requireText_of_get rfl hprotocol, ok_bind, hfees, FeeAssumption.fromDict_toDict, ok_bind,
    mapM_read CandidateRobustness.fromDict_toDict, ok_bind]
  exact construct_eq_ok conclusion.valid

lemma quiet_conclusion_fromDict (payload : JsonValue) : Quiet Contractual (CandidateConclusion.fromDict payload) :=
  quiet_bind quiet_requireExactKeys fun _ _ => quiet_bind quiet_requireText fun _ _ =>
    quiet_bind (quiet_orThrow (contractual_contract _)) fun _ _ => quiet_bind quiet_requireList fun _ _ =>
    quiet_bind quiet_requireText fun _ _ => quiet_bind quiet_requireText fun _ _ => quiet_bind quiet_requireText
    fun _ _ => quiet_bind (quiet_feeAssumption_fromDict _) fun _ _ =>
    quiet_bind (quiet_mapM quiet_robustness_fromDict _) fun _ _ => quiet_construct (quiet_conclusion _)

/-! ## The index -/

namespace CandidateConclusionIndex

/-- Source: `research/candidate_conclusions.py` `CandidateConclusionIndex.to_dict`. -/
def toDict (index : CandidateConclusionIndex) : JsonValue :=
  .obj [("schema_version", .int index.schemaVersion), ("instrument_id", .str index.instrumentId),
    ("trusted_generation", .str index.trustedGeneration), ("window_days", .int index.windowDays),
    ("windows", .int index.windows),
    ("entries", .arr (index.entries.map fun entry => entry.toConclusionFields.toDict))]

/-- The keys of an index. -/
def indexKeys : List String :=
  ["schema_version", "instrument_id", "trusted_generation", "window_days", "windows", "entries"]

/-- Source: `research/candidate_conclusions.py` `CandidateConclusionIndex.from_dict`. -/
def fromDict (payload : JsonValue) : Except ConclusionError CandidateConclusionIndex := do
  requireExactKeys payload indexKeys "conclusion index"
  let entries ← requireList payload "entries"
  let schemaVersion ← requireInt payload "schema_version"
  let instrumentId ← requireText payload "instrument_id"
  let trustedGeneration ← requireText payload "trusted_generation"
  let windowDays ← requireInt payload "window_days"
  let windows ← requireInt payload "windows"
  let entries ← entries.mapM CandidateConclusion.fromDict
  construct ConclusionIndexFields.postInit CandidateConclusionIndex.mk
    { entries, instrumentId, trustedGeneration, windowDays, windows, schemaVersion }

variable [FloatText PyFloat]

/-- Source: `research/candidate_conclusions.py` `CandidateConclusionIndex.to_json`. -/
def toJson (index : CandidateConclusionIndex) : Option String := (index.toDict.dumpsIndented 2).map (· ++ "\n")

/-- Source: `research/candidate_conclusions.py` `CandidateConclusionIndex.from_json`. -/
def fromJson (text : String) : Except ConclusionError CandidateConclusionIndex := do
  require (text.toList.any fun c => !isSpace c) (.contract "candidate conclusion index is empty")
  let payload ← orThrow (Json.loads text) .malformed
  fromDict payload

omit [FloatText PyFloat] in
/-- The texts of an index are not empty. -/
lemma texts_ne (index : CandidateConclusionIndex) : index.instrumentId ≠ "" ∧ index.trustedGeneration ≠ "" := by
  have h := index.valid
  simp only [ConclusionIndexFields.postInit, bind_eq_ok, require_eq_ok, exists_const] at h
  obtain ⟨-, hid, hgeneration, -⟩ := h
  constructor
  · intro hempty
    rw [hempty] at hid
    revert hid
    decide
  · intro hempty
    rw [hempty] at hgeneration
    cases hgeneration

omit [FloatText PyFloat] in
lemma fromDict_toDict (index : CandidateConclusionIndex) : fromDict index.toDict = .ok index := by
  have hkeys : requireExactKeys index.toDict indexKeys "conclusion index" = .ok () := rfl
  obtain ⟨hid, hgeneration⟩ := index.texts_ne
  rw [fromDict, hkeys, ok_bind, requireList_of_get rfl, ok_bind, requireInt_of_get rfl, ok_bind,
    requireText_of_get rfl hid, ok_bind, requireText_of_get rfl hgeneration, ok_bind, requireInt_of_get rfl, ok_bind,
    requireInt_of_get rfl, ok_bind, mapM_read CandidateConclusion.fromDict_toDict, ok_bind]
  exact construct_eq_ok index.valid

omit [FloatText PyFloat] in
/-- A dictionary of an index has no floats, and its keys once. -/
lemma plain_toDict (index : CandidateConclusionIndex) : index.toDict.Plain := by
  have hcells : ∀ cells : List StressCellReturn, (Json.arr (cells.map fun cell => cell.toDict)).Plain := by
    refine fun cells => plainItems_iff.mpr (List.forall_mem_map.mpr fun cell _ => ⟨(by decide : stressCellKeys.Nodup), ?_⟩)
    exact ⟨trivial, trivial, trivial, trivial⟩
  have hints : ∀ ns : List ℤ, (Json.arr (ns.map .int) : JsonValue).Plain :=
    fun ns => plainItems_iff.mpr (List.forall_mem_map.mpr fun _ _ => trivial)
  have hmetrics : ∀ metrics : List CandidateRobustness, (Json.arr (metrics.map fun metric => metric.toDict)).Plain := by
    refine fun metrics => plainItems_iff.mpr (List.forall_mem_map.mpr fun metric _ => ⟨(by decide : robustnessKeys.Nodup), ?_⟩)
    have hconcentration : (Json.optStr metric.topNTradeConcentration : JsonValue).Plain := by
      cases metric.topNTradeConcentration <;> trivial
    exact ⟨trivial, trivial, trivial, trivial, trivial, trivial, hconcentration, hcells _, trivial, trivial⟩
  have hentries : (Json.arr (index.entries.map fun entry => entry.toDict)).Plain := by
    refine plainItems_iff.mpr (List.forall_mem_map.mpr fun entry _ => ⟨(by decide : conclusionKeys.Nodup), ?_⟩)
    have hfees : entry.feeAssumption.toDict.Plain :=
      ⟨(by decide : feeAssumptionKeys.Nodup), trivial, hints _, hints _, trivial, trivial⟩
    exact ⟨trivial, trivial, trivial, hfees, hmetrics _, trivial, trivial⟩
  exact ⟨(by decide : indexKeys.Nodup), trivial, trivial, trivial, trivial, trivial, hentries, trivial⟩

/-- **An index is read back** as it was written. -/
lemma fromJson_toJson (index : CandidateConclusionIndex) :
    ∃ text, index.toJson = some text ∧ fromJson text = .ok index := by
  obtain ⟨text, hdumps, hloads⟩ := loadsWith_dumpsIndented 2 (Json.Plain.tidy _ index.plain_toDict)
  obtain ⟨tail, hstart⟩ := dumpsIndented_obj 2 hdumps
  have hread := hloads _ keepsDicts_dictOf ['\n'] (by simp [isJsonSpace])
  have hvisible : ((text ++ String.ofList ['\n']).toList.any fun c => !isSpace c) = true := by
    rw [String.toList_append, hstart, List.cons_append, List.any_cons]
    rfl
  refine ⟨text ++ String.ofList ['\n'], by rw [toJson, hdumps, Option.map_some], ?_⟩
  rw [fromJson, hvisible, require_true, ok_bind, Json.loads, hread, orThrow_some, ok_bind]
  exact index.fromDict_toDict

omit [FloatText PyFloat] in
/-- **A payload is read or refused.** -/
lemma quiet_fromDict (payload : JsonValue) : Quiet Contractual (fromDict payload) :=
  quiet_bind quiet_requireExactKeys fun _ _ => quiet_bind quiet_requireList fun _ _ =>
    quiet_bind quiet_requireInt fun _ _ => quiet_bind quiet_requireText fun _ _ => quiet_bind quiet_requireText
    fun _ _ => quiet_bind quiet_requireInt fun _ _ => quiet_bind quiet_requireInt fun _ _ =>
    quiet_bind (quiet_mapM quiet_conclusion_fromDict _) fun _ _ => quiet_construct (quiet_conclusionIndex _)

end CandidateConclusionIndex

/-- **The file of conclusions**: every index is written, and read back as it was; and whatever a payload is, it is read as
an index that passed its checks, or refused as a contradictory one. -/
theorem conclusion_file_faithful [FloatText PyFloat] :
    (∀ index : CandidateConclusionIndex,
      ∃ text, index.toJson = some text ∧ CandidateConclusionIndex.fromJson text = .ok index) ∧
    ∀ payload error, CandidateConclusionIndex.fromDict payload = .error error → error ≠ .internal :=
  ⟨fun index => index.fromJson_toJson, fun payload _ herror =>
    (CandidateConclusionIndex.quiet_fromDict payload).of_error herror⟩

end MuStrategy.Research
