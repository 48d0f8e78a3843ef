import MuStrategy.Execution.Fence
import MuStrategy.Lib.JsonText

/-!
# The codec and the identity of order intents

An intent and its dictionary determine each other, its JSON text reads back, and its identifiers cover its fields.

* `SameDict` — two dictionaries with the same entries.
* `toDict_of_fromDict`, `fromDict_of_sameDict` — decoding and encoding; `fromJson_toJson` — texts.
* `CollisionFree` — a hash that tells two payloads apart; `intentId_covers`, `businessActionId_covers`.
* `order_intent_codec` — all of it.
-/

namespace MuStrategy.Execution

open Lib

/-- Equal dictionaries: the same value for every key. -/
def SameDict (p q : JsonValue) : Prop := ∀ key, p.get? key = q.get? key

/-! ## Decoding -/

section decoding

variable {payload : JsonValue} {key : String}

lemma get_of_requiredText {value : String} (h : requiredText payload key = .ok value) :
    payload.get? key = some (.str value) := by
  simp only [requiredText, bind_eq_ok, orThrow_eq_ok, require_eq_ok, exists_const, pure_eq_ok_iff,
    Option.bind_eq_some_iff] at h
  obtain ⟨text, ⟨v, hv, htext⟩, -, rfl⟩ := h
  cases v <;> cases htext
  exact hv

lemma get_of_requiredInt {value : ℤ} (h : requiredInt payload key = .ok value) :
    payload.get? key = some (.int value) := by
  simp only [requiredInt, orThrow_eq_ok, Option.bind_eq_some_iff] at h
  obtain ⟨v, hv, hvalue⟩ := h
  cases v <;> cases hvalue
  exact hv

lemma get_of_requiredEnum {α : Type} [PyEnum α] {a : α} (h : requiredEnum payload key = .ok a) :
    payload.get? key = some (.str (PyEnum.value a)) := by
  simp only [requiredEnum, orThrow_eq_ok, Option.bind_eq_some_iff] at h
  obtain ⟨v, hv, text, htext, ha⟩ := h
  cases v <;> cases htext
  rw [hv, PyEnum.value_of_ofValue? ha]

lemma items_of_hashPairs {items : List JsonValue} {pairs : List (String × String)} (h : hashPairs items = .ok pairs) :
    items = pairs.map fun pair => .arr [.str pair.1, .str pair.2] := by
  induction items generalizing pairs with
  | nil =>
      cases h
      rfl
  | cons item items ih =>
      simp only [hashPairs, bind_eq_ok, pure_eq_ok_iff] at h
      obtain ⟨pair, hpair, rest, hrest, rfl⟩ := h
      rw [List.map_cons, ← ih hrest]
      unfold hashPair at hpair
      split at hpair
      · cases hpair
        rfl
      · cases hpair
      · cases hpair

lemma get_of_requiredHashPairs {pairs : List (String × String)} (h : requiredHashPairs payload = .ok pairs) :
    payload.get? "data_content_sha256" = some (hashPairsJson pairs) := by
  unfold requiredHashPairs at h
  split at h
  · rename_i items hitems
    rw [hitems, items_of_hashPairs h]
    rfl
  · cases h

/-- A key that a dictionary lacks has no value. -/
lemma get?_eq_none (h : key ∉ payload.keys) : payload.get? key = none := by
  unfold Json.keys at h
  unfold Json.get?
  split
  · rw [Option.map_eq_none_iff, List.find?_eq_none]
    intro field hfield heq
    exact h (List.mem_map.mpr ⟨field, hfield, of_decide_eq_true heq⟩)
  · rfl

/-- The keys of an accepted dictionary. -/
lemma mem_names_of_requireFieldNames {u : Unit} (h : requireFieldNames payload = .ok u) :
    ∀ key ∈ payload.keys, key ∈ orderIntentFieldNames := by
  simp only [requireFieldNames, bind_eq_ok, require_eq_ok, exists_const] at h
  obtain ⟨-, hunknown, -⟩ := h
  intro key hkey
  rw [List.isEmpty_iff, List.filter_eq_nil_iff] at hunknown
  simpa using hunknown key hkey

/-- **What is decoded has the entries of the dictionary.** -/
theorem get?_of_read {f : OrderIntentFields} (h : OrderIntentFields.read payload = .ok f) : SameDict f.toDict payload := by
  simp only [OrderIntentFields.read, bind_eq_ok, pure_eq_ok_iff] at h
  obtain ⟨_, hnames, hashes, hhashes, schema, hschema, lineage, hlineage, action, haction, intent, hintent, audit, haudit,
    environment, henvironment, symbol, hsymbol, side, hside, type, htype, size, hsize, limit, hlimit, mode, hmode,
    pos, hpos, leverage, hleverage, stop, hstop, source, hsource, signal, hsignal, code, hcode, trusted, htrusted,
    observed, hobserved, release, hrelease, name, hname, config, hconfig, bars, hbars, created, hcreated,
    expires, hexpires, rfl⟩ := h
  intro key
  by_cases hkey : key ∈ orderIntentFieldNames
  · simp only [orderIntentFieldNames, List.mem_cons, List.not_mem_nil, or_false] at hkey
    rcases hkey with rfl | rfl | rfl | rfl | rfl | rfl | rfl | rfl | rfl | rfl | rfl | rfl | rfl | rfl | rfl | rfl |
      rfl | rfl | rfl | rfl | rfl | rfl | rfl | rfl | rfl | rfl | rfl
    · exact (get_of_requiredInt hschema).symm
    · exact (get_of_requiredText hlineage).symm
    · exact (get_of_requiredText haction).symm
    · exact (get_of_requiredText hintent).symm
    · exact (get_of_requiredText haudit).symm
    · exact (get_of_requiredEnum henvironment).symm
    · exact (get_of_requiredText hsymbol).symm
    · exact (get_of_requiredText hside).symm
    · exact (get_of_requiredText htype).symm
    · exact (get_of_requiredText hsize).symm
    · exact (get_of_requiredText hlimit).symm
    · exact (get_of_requiredText hmode).symm
    · exact (get_of_requiredText hpos).symm
    · exact (get_of_requiredInt hleverage).symm
    · exact (get_of_requiredText hstop).symm
    · exact (get_of_requiredText hsource).symm
    · exact (get_of_requiredInt hsignal).symm
    · exact (get_of_requiredEnum hcode).symm
    · exact (get_of_requiredText htrusted).symm
    · exact (get_of_requiredInt hobserved).symm
    · exact (get_of_requiredHashPairs hhashes).symm
    · exact (get_of_requiredText hrelease).symm
    · exact (get_of_requiredText hname).symm
    · exact (get_of_requiredText hconfig).symm
    · exact (get_of_requiredInt hbars).symm
    · exact (get_of_requiredInt hcreated).symm
    · exact (get_of_requiredInt hexpires).symm
  · have hpayload : key ∉ payload.keys := fun hmem => hkey (mem_names_of_requireFieldNames hnames key hmem)
    rw [get?_eq_none hpayload, get?_eq_none]
    exact hkey

end decoding

/-! ## Texts -/

section codec

variable [Sha256]

/-- Source: `execution/intents.py` `OrderIntent.to_json`. -/
def OrderIntent.toJson [FloatText PyFloat] (x : OrderIntent) : Option String := x.toDict.dumps

/-- Source: `execution/intents.py` `OrderIntent.from_json`. -/
def OrderIntent.fromJson [FloatText PyFloat] (value : String) : Except OrderIntentSchemaError OrderIntent := do
  let payload ← orThrow (Json.loads value) ⟨"invalid intent JSON", []⟩
  OrderIntent.fromDict payload

/-- The dictionary of the decoded intent is the one that was decoded. -/
theorem OrderIntent.toDict_of_fromDict {payload : JsonValue} {x : OrderIntent} (h : OrderIntent.fromDict payload = .ok x) :
    SameDict x.toDict payload := by
  obtain ⟨f, hread, hbuild⟩ := bind_eq_ok.mp h
  have hfields : x.toOrderIntentFields = f := by
    unfold OrderIntent.ofFields at hbuild
    split at hbuild
    · cases hbuild
      rfl
    · cases hbuild
  rw [hfields]
  exact get?_of_read hread

/-- A dictionary with the entries of an intent is decoded as it. -/
theorem OrderIntent.fromDict_of_sameDict {payload : JsonValue} {x : OrderIntent} (hnames : requireFieldNames payload = .ok ())
    (hsame : SameDict payload x.toDict) : OrderIntent.fromDict payload = .ok x := by
  obtain ⟨hid, ht, -⟩ := OrderIntentFields.checked_of_validate x.valid
  rw [OrderIntent.fromDict, OrderIntentFields.read_of_get hid ht hnames hsame, ok_bind, OrderIntent.ofFields_toFields]

omit [Sha256] in
/-- The keys of a dictionary, in any order, are its field names. -/
lemma requireFieldNames_of_perm {fields : List (String × JsonValue)}
    (h : (fields.map Prod.fst).Perm orderIntentFieldNames) : requireFieldNames (.obj fields) = .ok () := by
  have hunknown : (Json.obj fields).keys.filter (fun key => !orderIntentFieldNames.contains key) = [] := by
    rw [List.filter_eq_nil_iff]
    intro key hkey
    simpa using h.mem_iff.mp hkey
  have hmissing : orderIntentFieldNames.filter (fun key => !(Json.obj fields).keys.contains key) = [] := by
    rw [List.filter_eq_nil_iff]
    intro key hkey
    have hmem : key ∈ (Json.obj fields).keys := h.mem_iff.mpr hkey
    simpa using hmem
  simp only [requireFieldNames, hunknown, hmissing]
  rfl

omit [Sha256] in
lemma hashPairsJson_plain (pairs : List (String × String)) :
    (hashPairsJson pairs).Plain ∧ (hashPairsJson pairs).sortKeys = hashPairsJson pairs := by
  constructor
  · refine plainItems_iff.mpr fun item hitem => ?_
    obtain ⟨pair, -, rfl⟩ := List.mem_map.mp hitem
    exact ⟨trivial, trivial, trivial⟩
  · simp [hashPairsJson, Json.sortKeys, sortItems_eq_map]

/-- **The JSON text of an intent reads back.** -/
theorem OrderIntent.fromJson_toJson [FloatText PyFloat] (x : OrderIntent) :
    ∃ text, x.toJson = some text ∧ OrderIntent.fromJson text = .ok x := by
  have hnodup : orderIntentFieldNames.Nodup := by decide
  obtain ⟨hplain, hsorted⟩ := hashPairsJson_plain x.dataContentSha256
  have hdict : x.toDict.Plain := by
    refine ⟨hnodup, ?_⟩
    simp only [PlainFields, Json.Plain, true_and, and_true]
    exact hplain
  obtain ⟨text, hdumps, hloads⟩ := loads_dumps hdict
  refine ⟨text, hdumps, ?_⟩
  rw [OrderIntent.fromJson, hloads, orThrow_some, ok_bind]
  refine OrderIntent.fromDict_of_sameDict (requireFieldNames_of_perm ((keys_sortKeys_perm _).trans (List.Perm.refl _))) ?_
  intro key
  refine get?_sortKeys_of_flat ?_ ?_ key
  · exact hnodup
  · simp only [sortFields, Json.sortKeys, hsorted]

/-! ## Identity -/

omit [Sha256] in
lemma hashPairsJson_injective : Function.Injective hashPairsJson := by
  intro pairs pairs' h
  refine List.map_injective_iff.mpr (fun pair pair' heq => ?_) (Json.arr.inj h)
  simp only [Json.arr.injEq, List.cons.injEq, Json.str.injEq, and_true] at heq
  exact Prod.ext heq.1 heq.2

omit [Sha256] in
/-- The fingerprint payload has every field but the creation time, and the identifiers derived from it. -/
lemma fields_of_fingerprintPayload {f g : OrderIntentFields} (h : f.fingerprintPayload = g.fingerprintPayload) :
    { f with intentId := g.intentId, auditCorrelationId := g.auditCorrelationId, createdAtMs := g.createdAtMs } = g := by
  simp only [OrderIntentFields.fingerprintPayload, Json.obj.injEq, List.cons.injEq, Prod.mk.injEq, Json.int.injEq,
    Json.str.injEq, true_and, and_true] at h
  obtain ⟨hschema, hlineage, haction, henvironment, hsymbol, hside, htype, hsize, hlimit, hmode, hpos, hleverage, hstop,
    hsource, hsignal, hcode, htrusted, hobserved, hhashes, hrelease, hname, hconfig, hbars, hexpires⟩ := h
  cases g
  rw [OrderIntentFields.mk.injEq]
  exact ⟨hschema, hlineage, haction, rfl, rfl, PyEnum.value_injective henvironment, hsymbol, hside, htype, hsize, hlimit,
    hmode, hpos, hleverage, hstop, hsource, hsignal, PyEnum.value_injective hcode, htrusted, hobserved,
    hashPairsJson_injective hhashes, hrelease, hname, hconfig, hbars, rfl, hexpires⟩

/-- The hash tells two payloads apart. -/
def CollisionFree (p q : JsonValue) : Prop := canonicalSha256 p = canonicalSha256 q → p = q

omit [Sha256] in
/-- Source: `execution/intents.py` `_signal_lineage_id`, its payload. -/
def signalLineagePayload (f : OrderIntentFields) : JsonValue :=
  .obj [("strategy_rule_id", .str strategyReleaseV1RuleId),
    ("strategy_config_sha256", .str f.strategyConfigSha256),
    ("symbol", .str f.symbol),
    ("signal_time_ms", .int f.signalTimeMs)]

omit [Sha256] in
/-- Source: `execution/intents.py` `_business_action_id`, its payload. -/
def businessActionPayload (f : OrderIntentFields) : JsonValue :=
  .obj [("environment", .str (PyEnum.value f.environment)),
    ("action", .str "submit_entry"),
    ("signal_lineage_id", .str f.signalLineageId)]

/-- Digests with equal texts are equal. -/
lemma canonicalSha256_of_text {start : String} {p q : JsonValue}
    (h : start ++ (canonicalSha256 p).text = start ++ (canonicalSha256 q).text) : canonicalSha256 p = canonicalSha256 q := by
  rw [String.append_right_inj] at h
  generalize canonicalSha256 p = a at h
  generalize canonicalSha256 q = b at h
  cases a
  cases b
  cases h
  rfl

namespace OrderIntent

variable {x y : OrderIntent}

lemma signalLineageId_eq (x : OrderIntent) :
    x.signalLineageId = "sig1_" ++ (canonicalSha256 (signalLineagePayload x.toOrderIntentFields)).text := by
  have h := x.valid
  simp only [OrderIntentFields.validate, requireConstant, requireNonNegative, bind_eq_ok, require_eq_ok, exists_const,
    decide_eq_true_eq] at h
  obtain ⟨-, -, -, -, -, -, -, _, -, _, -, _, -, -, -, -, -, -, -, -, -, -, -, -, -, -, -, -, -, _, -, -, -, -, -,
    hlineage, -⟩ := h
  exact hlineage

/-- **The identifier of an intent covers every field but its creation time.** -/
theorem intentId_covers (hfree : CollisionFree x.fingerprintPayload y.fingerprintPayload) (h : x.intentId = y.intentId) :
    { x.toOrderIntentFields with createdAtMs := y.createdAtMs } = y.toOrderIntentFields := by
  have hdigest := h
  rw [x.identityChecked.intentId_eq, y.identityChecked.intentId_eq] at hdigest
  have hfields := fields_of_fingerprintPayload (hfree (canonicalSha256_of_text hdigest))
  have haction : x.businessActionId = y.businessActionId := by rw [← hfields]
  have haudit : x.auditCorrelationId = y.auditCorrelationId := by
    rw [x.identityChecked.auditCorrelationId_eq, y.identityChecked.auditCorrelationId_eq, haction]
  rw [← h, ← haudit] at hfields
  exact hfields

/-- **The business action of an intent covers its environment, and its signal.** -/
theorem businessActionId_covers
    (haction : CollisionFree (businessActionPayload x.toOrderIntentFields) (businessActionPayload y.toOrderIntentFields))
    (hlineage : CollisionFree (signalLineagePayload x.toOrderIntentFields) (signalLineagePayload y.toOrderIntentFields))
    (h : x.businessActionId = y.businessActionId) :
    x.environment = y.environment ∧ x.symbol = y.symbol ∧ x.signalTimeMs = y.signalTimeMs ∧
      x.strategyConfigSha256 = y.strategyConfigSha256 := by
  rw [x.identityChecked.businessActionId_eq, y.identityChecked.businessActionId_eq] at h
  have hpayload := haction (canonicalSha256_of_text h)
  simp only [businessActionPayload, Json.obj.injEq, List.cons.injEq, Prod.mk.injEq, Json.str.injEq, true_and,
    and_true] at hpayload
  have hsignal := hpayload.2
  rw [signalLineageId_eq, signalLineageId_eq] at hsignal
  have hevidence := hlineage (canonicalSha256_of_text hsignal)
  simp only [signalLineagePayload, Json.obj.injEq, List.cons.injEq, Prod.mk.injEq, Json.str.injEq, Json.int.injEq,
    true_and, and_true] at hevidence
  exact ⟨PyEnum.value_injective hpayload.1, hevidence.2.1, hevidence.2.2, hevidence.1⟩

end OrderIntent

/-- **The codec and the identity of order intents**: dictionaries and texts read back, an equal identifier means equal
fields but for the creation time, and an equal business action means the same environment and signal. -/
theorem order_intent_codec [FloatText PyFloat] :
    (∀ payload x, OrderIntent.fromDict payload = .ok x → SameDict x.toDict payload) ∧
    (∀ x : OrderIntent, OrderIntent.fromDict x.toDict = .ok x ∧
      ∃ text, x.toJson = some text ∧ OrderIntent.fromJson text = .ok x) ∧
    (∀ x y : OrderIntent, CollisionFree x.fingerprintPayload y.fingerprintPayload → x.intentId = y.intentId →
      { x.toOrderIntentFields with createdAtMs := y.createdAtMs } = y.toOrderIntentFields) ∧
    ∀ x y : OrderIntent,
      CollisionFree (businessActionPayload x.toOrderIntentFields) (businessActionPayload y.toOrderIntentFields) →
      CollisionFree (signalLineagePayload x.toOrderIntentFields) (signalLineagePayload y.toOrderIntentFields) →
      x.businessActionId = y.businessActionId →
      x.environment = y.environment ∧ x.symbol = y.symbol ∧ x.signalTimeMs = y.signalTimeMs ∧
        x.strategyConfigSha256 = y.strategyConfigSha256 :=
  ⟨fun _ _ h => OrderIntent.toDict_of_fromDict h, fun x => ⟨x.fromDict_toDict, x.fromJson_toJson⟩,
    fun _ _ hfree h => OrderIntent.intentId_covers hfree h,
    fun _ _ haction hlineage h => OrderIntent.businessActionId_covers haction hlineage h⟩

end codec

/-! ## An intent built twice -/

section concrete

attribute [local instance] zeroSha256

/-- No float is written or read. -/
@[reducible] def noFloats : FloatText PyFloat := ⟨fun _ => none, fun _ => .nan⟩

attribute [local instance] noFloats

/-- The demo intent, built half a second later. -/
def laterIntent : OrderIntent := ⟨{ demoFields with createdAtMs := 3500 }, by decide +kernel⟩

theorem order_intent_codec_demo :
    SameDict demoIntent.toDict demoIntent.toDict ∧
      (∃ text, demoIntent.toJson = some text ∧ OrderIntent.fromJson text = .ok demoIntent) ∧
      { demoIntent.toOrderIntentFields with createdAtMs := 3500 } = laterIntent.toOrderIntentFields ∧
      demoIntent.symbol = laterIntent.symbol := by
  obtain ⟨hdecoded, hencoded, hintents, hactions⟩ := order_intent_codec
  exact ⟨hdecoded _ _ (hencoded demoIntent).1, (hencoded demoIntent).2,
    hintents demoIntent laterIntent (fun _ => rfl) rfl,
    (hactions demoIntent laterIntent (fun _ => rfl) (fun _ => rfl) rfl).2.1⟩

end concrete

end MuStrategy.Execution
