import Coforge.Installer.Receipt

/-!
# Where the two readers of a receipt agree

Both readers are put side by side, member by member. The schema of five variants is the same as the
typed members with the rules of `validate`; what is left of the difference are the forms that only
one of the two takes.
-/

namespace Coforge.Installer

open Release List ReceiptFields
open Serde (Members)

/-! ### Names -/

lemma isRequestId_eq (value : String) : isRequestId value = rfcUuidPattern value := by
  rw [Bool.eq_iff_iff, rfcUuidPattern_iff]
  constructor
  · intro h
    have hjoin := @List.intercalate_splitOn _ value.toList _ _ '-'
    rw [isRequestId] at h
    split at h
    · rename_i a b c d e hsplit
      rw [hsplit] at hjoin
      simp only [all_cons, all_nil, Bool.and_true, Bool.and_eq_true, decide_eq_true_eq,
        all_eq_true] at h
      obtain ⟨⟨⟨ha, hb, hc, hd, he⟩, hversion⟩, hvariant⟩ := h
      refine ⟨a, b, c, d, e, ?_, ⟨ha, hb, ⟨hc.1, hc.2, hversion⟩, ⟨hd.1, hd.2, hvariant⟩, he⟩⟩
      rw [← hjoin]
      simp
    · cases h
  · rintro ⟨a, b, c, d, e, hvalue, hgroups⟩
    have hsplit : value.toList.splitOn '-' = [a, b, c, d, e] := by
      have hjoin : value.toList = ['-'].intercalate [a, b, c, d, e] := by simp [hvalue]
      rw [hjoin]
      refine splitOn_intercalate '-' (fun g hg => ?_) (cons_ne_nil _ _)
      simp only [mem_cons, not_mem_nil, or_false] at hg
      rcases hg with rfl | rfl | rfl | rfl | rfl
      · exact dash_not_mem hgroups.time.2
      · exact dash_not_mem hgroups.mid.2
      · exact dash_not_mem hgroups.version.2.1
      · exact dash_not_mem hgroups.variant.2.1
      · exact dash_not_mem hgroups.node.2
    simp only [isRequestId, hsplit, all_cons, all_nil, Bool.and_true, Bool.and_eq_true,
      decide_eq_true_eq, all_eq_true]
    exact ⟨⟨⟨hgroups.time, hgroups.mid, ⟨hgroups.version.1, hgroups.version.2.1⟩,
      ⟨hgroups.variant.1, hgroups.variant.2.1⟩, hgroups.node⟩, hgroups.version.2.2⟩,
      hgroups.variant.2.2⟩

lemma isErrorCode_eq (value : String) : isErrorCode value = upgradeErrorCodePattern value := by
  rw [isErrorCode, upgradeErrorCodePattern]
  cases value.toList with
  | nil => rfl
  | cons c cs =>
    simp only [length_cons, head?_cons, Option.any_some, tail_cons]
    have hlow : decide (3 ≤ cs.length + 1) = decide (2 ≤ cs.length) := by
      rw [decide_eq_decide]
      omega
    have hhigh : decide (cs.length + 1 ≤ 64) = decide (cs.length ≤ 63) := by
      rw [decide_eq_decide]
      omega
    rw [hlow, hhigh]
    cases c.isUpper <;> simp

/-! ### Member by member -/

namespace ReceiptReaders

def status : Twin Document ReceiptStatus := Twin.unitVariant.andThen (.same ReceiptStatus.named?)

def runtimeState : Twin Document RuntimeState :=
  (Twin.struct ["bindingId", "running"]).andThen <|
    (Twin.required "bindingId" .string).map RuntimeState.mk
      |>.seq (.required "running" .bool)

def deadProcessIdentity : Twin Document DeadProcessIdentity :=
  (Twin.struct ["pid", "startedAt", "executable"]).andThen <|
    (Twin.required "pid" (.natural 32 (2 ^ 53) (by decide))).map DeadProcessIdentity.mk
      |>.seq (.required "startedAt" .string)
      |>.seq (.required "executable" .string)

-- The integers of these two members are read in the whole range of their type.

lemma whole_u32 : 2 ^ 32 ≤ 2 ^ 32 := le_rfl

lemma whole_u8 : 2 ^ 8 ≤ 2 ^ 8 := le_rfl

def members : Twin Members ReceiptFields :=
  (Twin.required "schema_version" (.natural 32 (2 ^ 32) whole_u32)).map ReceiptFields.mk
    |>.seq (.required "request_id" .string)
    |>.seq (.required "operation" .string)
    |>.seq (.required "status" status)
    |>.seq (.optional "version" .string Twin.string_null)
    |>.seq (.optional "restoredVersion" .string Twin.string_null)
    |>.seq (.optional "error" .string Twin.string_null)
    |>.seq (.optional "errorCode" .string Twin.string_null)
    |>.seq (.optional "supervisorRunning" .bool Twin.bool_null)
    |>.seq (.optional "runtimes" (.array runtimeState) (Twin.array_null _))
    |>.seq (.optional "deadProcessIdentities" (.array deadProcessIdentity) (Twin.array_null _))
    |>.seq (.required "protocol" .string)
    |>.seq (.required "exit_code" (.natural 8 (2 ^ 8) whole_u8))
    |>.seq (.required "installer_version" .string)

end ReceiptReaders

open ReceiptReaders in
/-- The two readers of a receipt. -/
def receiptReaders : Twin Document ReceiptFields :=
  ((Twin.struct receiptNames).andThen members).filter fun fields => fields.validate.isOk

lemma UpgradeReceipt.ofFields_eq_ok {fields : ReceiptFields} {receipt : UpgradeReceipt} :
    UpgradeReceipt.ofFields fields = .ok receipt ↔ receipt.fields = fields := by
  rw [UpgradeReceipt.ofFields]
  split
  · rename_i hvalid
    constructor
    · intro h
      rw [← Except.ok.inj h]
    · rintro rfl
      rfl
  · rename_i e herror
    constructor
    · exact fun h => nomatch h
    · rintro rfl
      exact nomatch herror.symm.trans receipt.valid

lemma UpgradeReceipt.deserialize_eq_some {v : Document} {receipt : UpgradeReceipt} :
    UpgradeReceipt.deserialize v = some receipt ↔ receiptReaders.left v = some receipt.fields := by
  change (ReceiptFields.deserialize v).bind (fun fields => (ofFields fields).toOption) =
      some receipt ↔
    (ReceiptFields.deserialize v).filter (fun fields => fields.validate.isOk) =
      some receipt.fields
  rw [Option.bind_eq_some_iff, Option.filter_eq_some_iff]
  constructor
  · rintro ⟨fields, hfields, h⟩
    cases hreceipt : ofFields fields with
    | error e =>
      rw [hreceipt] at h
      exact nomatch h
    | ok built =>
      rw [hreceipt] at h
      obtain rfl := Option.some.inj h
      rw [ofFields_eq_ok.mp hreceipt]
      exact ⟨hfields, Except.isOk_iff.mpr (ofFields_eq_ok.mp hreceipt ▸ built.valid)⟩
  · rintro ⟨hfields, -⟩
    refine ⟨receipt.fields, hfields, ?_⟩
    rw [ofFields_eq_ok.mpr rfl]
    rfl

lemma UpgradeReceipt.isSome_deserialize (v : Document) :
    (UpgradeReceipt.deserialize v).isSome = (receiptReaders.left v).isSome := by
  rw [Bool.eq_iff_iff, Option.isSome_iff_exists, Option.isSome_iff_exists]
  constructor
  · rintro ⟨receipt, h⟩
    exact ⟨receipt.fields, deserialize_eq_some.mp h⟩
  · rintro ⟨fields, h⟩
    have hvalid : fields.validate.isOk = true := by
      have hfilter : (ReceiptFields.deserialize v).filter (fun fields => fields.validate.isOk) =
          some fields := h
      exact (Option.filter_eq_some_iff.mp hfilter).2
    exact ⟨⟨fields, Except.isOk_iff.mp hvalid⟩, deserialize_eq_some.mpr h⟩

/-! ### What the schema reads -/

namespace ReceiptReaders

open Twin Zod

variable {α : Type} {m : Members} {key : String} {v : Document}

lemma status_right {st : ReceiptStatus} : status.right v = some st ↔ v = .str st.name := by
  change (Serde.string v).bind ReceiptStatus.named? = some st ↔ _
  cases v with
  | str s =>
    simp only [Serde.string, Option.bind_some, Document.str.injEq, ReceiptStatus.named?]
    split_ifs with h₁ h₂ h₃
    · subst h₁
      cases st <;> decide
    · subst h₂
      cases st <;> decide
    · subst h₃
      cases st <;> decide
    · cases st <;> simpa [ReceiptStatus.name]
  | _ => simp [Serde.string]

lemma runtimeState_right :
    Zod.looseObject [("bindingId", Zod.string), ("running", Zod.boolean)] (some v) = true ↔
      ∃ r, runtimeState.right v = some r ∧ True := by
  rw [looseObject_iff]
  cases v with
  | obj fields =>
    change _ ↔ ∃ r, RuntimeState.mk <$>
      (required "bindingId" .string).right (fun key => fields.lookup key) <*>
      (required "running" .bool).right (fun key => fields.lookup key) = some r ∧ True
    simp only [Option.seq_eq_some, Option.map_eq_map, Option.map_eq_some_iff, required_string_right,
      required_bool_right]
    simp [string_iff, boolean_iff]
  | _ => simp [runtimeState, Twin.andThen, Twin.bind, Twin.struct, Serde.map]

lemma deadProcessIdentity_right : DeadProcessIdentitySchema (some v) = true ↔
      ∃ p, deadProcessIdentity.right v = some p ∧ p.isIdentified = true := by
  rw [DeadProcessIdentitySchema, looseObject_iff]
  cases v with
  | obj fields =>
    change _ ↔ ∃ p, DeadProcessIdentity.mk <$>
      (required "pid" (.natural 32 (2 ^ 53) (by decide))).right
        (fun key => fields.lookup key) <*>
      (required "startedAt" .string).right (fun key => fields.lookup key) <*>
      (required "executable" .string).right (fun key => fields.lookup key) = some p ∧ _
    simp only [Option.seq_eq_some, Option.map_eq_map, Option.map_eq_some_iff, required_string_right,
      natural_right, Option.some.injEq, Document.obj.injEq, exists_eq_left', forall_mem_cons,
      not_mem_nil, false_imp_iff, implies_true, and_true, positiveInt_iff, text_iff]
    constructor
    · rintro ⟨⟨d, n, hd, hn, hpos⟩, ⟨s, hs, hstart⟩, ⟨e, he, hexec⟩⟩
      refine ⟨⟨n, s, e⟩, ⟨_, e, ⟨_, s, ⟨n, ⟨d, hd, hn⟩, rfl⟩, hs, rfl⟩, he, rfl⟩, ?_⟩
      simp [DeadProcessIdentity.isIdentified, hpos, hstart, hexec]
    · rintro ⟨_, ⟨_, e, ⟨_, s, ⟨n, ⟨d, hd, hn⟩, rfl⟩, hs, rfl⟩, he, rfl⟩, hidentified⟩
      simp only [DeadProcessIdentity.isIdentified, Bool.and_eq_true, decide_eq_true_eq] at hidentified
      exact ⟨⟨d, n, hd, hn, hidentified.1.1⟩, ⟨s, hs, hidentified.1.2⟩, e, he, hidentified.2⟩
  | _ => simp [deadProcessIdentity, Twin.andThen, Twin.bind, Twin.struct, Serde.map]

lemma runtimes_right :
    Zod.optional (Zod.array (Zod.looseObject [("bindingId", Zod.string), ("running", Zod.boolean)]))
        (m key) = true ↔
      ∃ o, (Twin.optional key (.array runtimeState) (Twin.array_null _)).right m = some o := by
  simp only [Zod.optional_iff, optional_right, array_right]
  rcases m key with _ | v
  · simp
  · cases v with
    | arr xs =>
      have hpass := Document.mapM_pass (fun v => @runtimeState_right v) xs
      simp only [implies_true, and_true] at hpass
      simp [Zod.array, ← hpass]
    | _ => simp [Zod.array]

lemma deadProcessIdentities_right :
    Zod.optional (Zod.nonemptyArray DeadProcessIdentitySchema) (m key) = true ↔
      ∃ o, (Twin.optional key (.array deadProcessIdentity) (Twin.array_null _)).right m = some o ∧
        ∀ ps ∈ o, ps ≠ [] ∧ ∀ p ∈ ps, p.isIdentified = true := by
  simp only [optional_iff, optional_right, array_right]
  rcases m key with _ | v
  · simp
  · cases v with
    | arr xs =>
      have hpass := Document.mapM_pass (fun v => @deadProcessIdentity_right v) xs
      constructor
      · rintro (hnone | h)
        · exact nomatch hnone
        · obtain ⟨hne, hall⟩ := Bool.and_eq_true_iff.mp h
          obtain ⟨ps, hps, hidentified⟩ := hpass.mp hall
          refine ⟨some ps, .inr ⟨_, ps, rfl, ⟨xs, rfl, hps⟩, rfl⟩, fun _ hmem => ?_⟩
          cases hmem
          refine ⟨fun hnil => ?_, hidentified⟩
          rw [hnil, Document.mapM_eq_nil] at hps
          simp [hps] at hne
      · rintro ⟨o, ⟨hnone, -⟩ | ⟨_, ps, hv, ⟨_, rfl, hps⟩, rfl⟩, hall⟩
        · exact nomatch hnone
        · obtain rfl := Document.arr.inj (Option.some.inj hv)
          obtain ⟨hne, hidentified⟩ := hall ps rfl
          refine .inr (Bool.and_eq_true_iff.mpr ⟨?_, hpass.mpr ⟨ps, hps, hidentified⟩⟩)
          cases xs with
          | nil => exact absurd (Option.some.inj hps).symm hne
          | cons x xs => rfl
    | _ => simp [nonemptyArray]

variable {r : ReceiptFields}

lemma members_right : members.right m = some r ↔
    (Twin.required "schema_version" (.natural 32 (2 ^ 32) le_rfl)).right m = some r.schemaVersion ∧
    (Twin.required "request_id" .string).right m = some r.requestId ∧
    (Twin.required "operation" .string).right m = some r.operation ∧
    (Twin.required "status" status).right m = some r.status ∧
    (Twin.optional "version" .string Twin.string_null).right m = some r.version ∧
    (Twin.optional "restoredVersion" .string Twin.string_null).right m = some r.restoredVersion ∧
    (Twin.optional "error" .string Twin.string_null).right m = some r.error ∧
    (Twin.optional "errorCode" .string Twin.string_null).right m = some r.errorCode ∧
    (Twin.optional "supervisorRunning" .bool Twin.bool_null).right m = some r.supervisorRunning ∧
    (Twin.optional "runtimes" (.array runtimeState) (Twin.array_null _)).right m = some r.runtimes ∧
    (Twin.optional "deadProcessIdentities" (.array deadProcessIdentity) (Twin.array_null _)).right m =
      some r.deadProcessIdentities ∧ (Twin.required "protocol" .string).right m = some r.protocol ∧
    (Twin.required "exit_code" (.natural 8 (2 ^ 8) le_rfl)).right m = some r.exitCode ∧
    (Twin.required "installer_version" .string).right m = some r.installerVersion := by
  constructor
  · intro h
    simp only [members, Twin.seq, Twin.map, Option.seq_eq_some, Option.map_eq_map,
      Option.map_eq_some_iff] at h
    obtain ⟨_, _, ⟨_, _, ⟨_, _, ⟨_, _, ⟨_, _, ⟨_, _, ⟨_, _, ⟨_, _, ⟨_, _, ⟨_, _, ⟨_, _, ⟨_, _, ⟨_,
      _, ⟨_, h₁, rfl⟩, h₂, rfl⟩, h₃, rfl⟩, h₄, rfl⟩, h₅, rfl⟩, h₆, rfl⟩, h₇, rfl⟩, h₈, rfl⟩, h₉,
      rfl⟩, h₁₀, rfl⟩, h₁₁, rfl⟩, h₁₂, rfl⟩, h₁₃, rfl⟩, h₁₄, rfl⟩ := h
    exact ⟨h₁, h₂, h₃, h₄, h₅, h₆, h₇, h₈, h₉, h₁₀, h₁₁, h₁₂, h₁₃, h₁₄⟩
  · rintro ⟨h₁, h₂, h₃, h₄, h₅, h₆, h₇, h₈, h₉, h₁₀, h₁₁, h₁₂, h₁₃, h₁₄⟩
    simp only [members, Twin.seq, Twin.map, h₁, h₂, h₃, h₄, h₅, h₆, h₇, h₈, h₉, h₁₀, h₁₁, h₁₂, h₁₃,
      h₁₄]
    rfl

/-! ### The table of outcomes -/

/-- What the schema pairs: a status and an exit code with an error, its code and a version. -/
inductive Paired : ReceiptStatus → Nat → Option String → Option String → Option String → Prop
  | succeeded {error} : Paired .succeeded exitSucceeded error none none
  | failed {error} {errorCode : Option String} (herror : error ≠ "")
      (hcode : ∀ code ∈ errorCode, upgradeErrorCodePattern code = true ∧ code ≠ rolledBackCode ∧
        code ≠ rollbackFailedCode) : Paired .failed exitFailed (some error) errorCode none
  | rolledBack {error version} (herror : error ≠ "") (hversion : version ≠ "") :
      Paired .failed exitFailed (some error) (some rolledBackCode) (some version)
  | held {error} {errorCode : Option String} (herror : error ≠ "")
      (hcode : ∀ code ∈ errorCode, upgradeErrorCodePattern code = true ∧ code ≠ rolledBackCode ∧
        code ≠ rollbackFailedCode) : Paired .held exitHeld (some error) errorCode none
  | unresolved {error} {errorCode : Option String} (herror : error ≠ "")
      (hcode : ∀ code ∈ errorCode, code = rollbackFailedCode) :
      Paired .failed exitUnresolved (some error) errorCode none

variable {fields : ReceiptFields}

lemma hasReason_iff :
    fields.hasReason = true ↔ ∃ error, fields.error = some error ∧ error ≠ "" := by
  rw [hasReason]
  cases fields.error <;> simp

lemma rolledBackCode_pattern : upgradeErrorCodePattern rolledBackCode = true := by decide

lemma rollbackFailedCode_pattern : upgradeErrorCodePattern rollbackFailedCode = true := by decide

lemma nonRollback_iff : ((∀ code ∈ fields.errorCode, upgradeErrorCodePattern code = true) ∧
      fields.rollbackCode = false) ↔
    ∀ code ∈ fields.errorCode, upgradeErrorCodePattern code = true ∧ code ≠ rolledBackCode ∧
      code ≠ rollbackFailedCode := by
  rw [rollbackCode]
  cases fields.errorCode <;> simp

lemma paired_iff :
    ((∀ code ∈ fields.errorCode, upgradeErrorCodePattern code = true) ∧ fields.paired = .ok true) ↔
      Paired fields.status fields.exitCode fields.error fields.errorCode fields.restoredVersion := by
  constructor
  · rintro ⟨hcode, hpaired⟩
    rw [paired] at hpaired
    split at hpaired
    · rename_i hstatus hexit
      simp only [Except.ok.injEq, Bool.and_eq_true, Option.isNone_iff_eq_none] at hpaired
      rw [hstatus, hexit, hpaired.1, hpaired.2]
      exact .succeeded
    · rename_i hstatus hexit
      simp only [Except.ok.injEq, Bool.and_eq_true, Option.isNone_iff_eq_none, hasReason_iff,
        Bool.not_eq_true'] at hpaired
      obtain ⟨⟨⟨error, herror, hne⟩, hrollback⟩, hrestored⟩ := hpaired
      rw [hstatus, hexit, herror, hrestored]
      exact .held hne (nonRollback_iff.mp ⟨hcode, hrollback⟩)
    · rename_i hstatus hexit
      split_ifs at hpaired with hrolledBack
      · simp only [Except.ok.injEq, Bool.and_eq_true, hasReason_iff, Option.any_eq_true,
          decide_eq_true_eq] at hpaired
        obtain ⟨⟨error, herror, hne⟩, version, hrestored, hversion⟩ := hpaired
        rw [hstatus, hexit, herror, hrestored, hrolledBack]
        exact .rolledBack hne hversion
      · simp only [Except.ok.injEq, Bool.and_eq_true, Option.isNone_iff_eq_none, hasReason_iff,
          Bool.not_eq_true'] at hpaired
        obtain ⟨⟨⟨error, herror, hne⟩, hrollback⟩, hrestored⟩ := hpaired
        rw [hstatus, hexit, herror, hrestored]
        exact .failed hne (nonRollback_iff.mp ⟨hcode, hrollback⟩)
    · rename_i hstatus hexit
      simp only [Except.ok.injEq, Bool.and_eq_true, Option.isNone_iff_eq_none, hasReason_iff,
        Bool.or_eq_true, decide_eq_true_eq] at hpaired
      obtain ⟨⟨⟨error, herror, hne⟩, hunresolved⟩, hrestored⟩ := hpaired
      rw [hstatus, hexit, herror, hrestored]
      refine .unresolved hne fun code hmem => ?_
      rcases hunresolved with hnone | hsome
      · rw [hnone] at hmem
        exact nomatch hmem
      · rw [hsome] at hmem
        exact (Option.some.inj hmem).symm
    · exact nomatch hpaired
  · intro h
    generalize hstatus : fields.status = status at h
    generalize hexit : fields.exitCode = exitCode at h
    generalize herror : fields.error = error at h
    generalize hcode : fields.errorCode = code at h
    generalize hrestored : fields.restoredVersion = restored at h
    cases h with
    | succeeded => exact ⟨nofun, by simp [paired, hstatus, hexit, hcode, hrestored]⟩
    | failed hne hcodes =>
      rw [← hcode] at hcodes
      obtain ⟨hpattern, hrollback⟩ := nonRollback_iff.mpr hcodes
      have hother : fields.errorCode ≠ some rolledBackCode := fun h => (hcodes _ h).2.1 rfl
      rw [← hcode]
      refine ⟨hpattern, ?_⟩
      simp [paired, hstatus, hexit, hother, hrollback, hasReason_iff, herror, hne, hrestored]
    | rolledBack hne hversion =>
      refine ⟨fun code hmem => ?_, ?_⟩
      · cases hmem
        exact rolledBackCode_pattern
      · simp [paired, hstatus, hexit, hcode, hasReason_iff, herror, hne, hrestored, hversion]
    | held hne hcodes =>
      rw [← hcode] at hcodes
      obtain ⟨hpattern, hrollback⟩ := nonRollback_iff.mpr hcodes
      rw [← hcode]
      refine ⟨hpattern, ?_⟩
      simp [paired, hstatus, hexit, hrollback, hasReason_iff, herror, hne, hrestored]
    | unresolved hne hcodes =>
      refine ⟨fun code hmem => ?_, ?_⟩
      · rw [hcodes code hmem]
        exact rollbackFailedCode_pattern
      · cases code with
        | none =>
          simp [paired, hstatus, hexit, hcode, hasReason_iff, herror, hne, hrestored]
        | some code =>
          obtain rfl := hcodes code rfl
          simp [paired, hstatus, hexit, hcode, hasReason_iff, herror, hne, hrestored]

lemma isOk_validate : fields.validate.isOk = true ↔
      fields.schemaVersion = receiptSchemaVersion ∧ fields.operation = "upgrade" ∧
        fields.protocol = installerReceiptProtocol ∧ rfcUuidPattern fields.requestId = true ∧
        Paired fields.status fields.exitCode fields.error fields.errorCode fields.restoredVersion ∧
        ∀ ps ∈ fields.deadProcessIdentities, ps ≠ [] ∧ ∀ p ∈ ps, p.isIdentified = true := by
  have hdead : (¬(fields.deadProcessIdentities.any fun processes =>
      processes.isEmpty || !processes.all DeadProcessIdentity.isIdentified) = true) ↔
      ∀ ps ∈ fields.deadProcessIdentities, ps ≠ [] ∧ ∀ p ∈ ps, p.isIdentified = true := by
    cases fields.deadProcessIdentities <;> simp
  have hcodes : (¬(fields.errorCode.any fun code => !isErrorCode code) = true) ↔
      ∀ code ∈ fields.errorCode, upgradeErrorCodePattern code = true := by
    cases fields.errorCode <;> simp [isErrorCode_eq]
  rw [← paired_iff, validate]
  simp only [Except.isOk_guard, Except.isOk_bind, isRequestId_eq, hdead, hcodes]
  constructor
  · rintro ⟨hschema, hoperation, hprotocol, hid, hcode, paired, hpaired, hne, hidentified, -⟩
    obtain rfl : paired = true := by simpa using hne
    exact ⟨not_not.mp hschema, not_not.mp hoperation, not_not.mp hprotocol, by simpa using hid,
      ⟨hcode, hpaired⟩, hidentified⟩
  · rintro ⟨hschema, hoperation, hprotocol, hid, ⟨hcode, hpaired⟩, hidentified⟩
    exact ⟨not_not.mpr hschema, not_not.mpr hoperation, not_not.mpr hprotocol, by simp [hid], hcode,
      true, hpaired, by simp, hidentified, rfl⟩

/-! ### The schema -/

/-- The members that every variant of the schema checks alike. -/
structure Common (m : Members) : Prop where
  schemaVersion : Zod.number 1 (m "schema_version") = true
  requestId : Zod.regex rfcUuidPattern (m "request_id") = true
  version : Zod.optional Zod.string (m "version") = true
  supervisorRunning : Zod.optional Zod.boolean (m "supervisorRunning") = true
  runtimes : Zod.optional (Zod.array (Zod.looseObject
    [("bindingId", Zod.string), ("running", Zod.boolean)])) (m "runtimes") = true
  operation : Zod.literal "upgrade" (m "operation") = true
  protocol : Zod.literal installerReceiptProtocol (m "protocol") = true
  installerVersion : Zod.string (m "installer_version") = true
  deadProcessIdentities : Zod.optional (Zod.nonemptyArray DeadProcessIdentitySchema)
    (m "deadProcessIdentities") = true

/-- The members in which the variants differ, as what they are read as. -/
structure Variant (m : Members) (status : ReceiptStatus) (exitCode : Nat)
    (error errorCode restored : Option String) : Prop where
  status : m "status" = some (.str status.name)
  exitCode : Zod.number exitCode (m "exit_code") = true
  error : m "error" = error.map .str
  errorCode : m "errorCode" = errorCode.map .str
  restored : m "restoredVersion" = restored.map .str

variable {o : Option Document}

lemma optional_string_iff :
    Zod.optional Zod.string o = true ↔ ∃ t : Option String, o = t.map .str := by
  rw [optional_iff, string_iff]
  constructor
  · rintro (rfl | ⟨s, rfl⟩)
    · exact ⟨none, rfl⟩
    · exact ⟨some s, rfl⟩
  · rintro ⟨_ | s, rfl⟩
    · exact .inl rfl
    · exact .inr ⟨s, rfl⟩

lemma noValue_iff : noValue o = true ↔ o = none := by
  cases o <;> simp [noValue, Zod.optional, Zod.never]

lemma nonRollback_code_iff :
    Zod.optional nonRollbackErrorCode o = true ↔ ∃ t : Option String, o = t.map .str ∧
      ∀ code ∈ t, upgradeErrorCodePattern code = true ∧ code ≠ rolledBackCode ∧
        code ≠ rollbackFailedCode := by
  rw [optional_iff, nonRollbackErrorCode, regex_iff]
  simp only [Bool.and_eq_true, decide_eq_true_eq, and_assoc]
  constructor
  · rintro (rfl | ⟨s, rfl, hs⟩)
    · exact ⟨none, rfl, nofun⟩
    · exact ⟨some s, rfl, fun code hcode => by rwa [← Option.some.inj hcode]⟩
  · rintro ⟨_ | s, rfl, hs⟩
    · exact .inl rfl
    · exact .inr ⟨s, rfl, hs s rfl⟩

lemma rollbackFailed_code_iff :
    Zod.optional (Zod.literal rollbackFailedCode) o = true ↔ ∃ t : Option String, o = t.map .str ∧
      ∀ code ∈ t, code = rollbackFailedCode := by
  rw [optional_iff, literal_iff]
  constructor
  · rintro (rfl | rfl)
    · exact ⟨none, rfl, nofun⟩
    · exact ⟨some rollbackFailedCode, rfl, fun code hcode => (Option.some.inj hcode).symm⟩
  · rintro ⟨_ | s, rfl, hs⟩
    · exact .inl rfl
    · exact .inr (by rw [hs s rfl]; rfl)

lemma schema_iff {fields : List (String × Document)} :
    InstallerReceiptSchema (some (.obj fields)) = true ↔
      Common (fun key => fields.lookup key) ∧ ∃ status exitCode error errorCode restored,
        Variant (fun key => fields.lookup key) status exitCode error errorCode restored ∧
          Paired status exitCode error errorCode restored := by
  simp only [InstallerReceiptSchema, union, extend, Int.cast_ofNat_Int, any_cons, any_nil,
    Bool.or_false, Bool.not_or, receiptFields, upgradeResultShape, String.reduceEq, decide_false,
    Bool.not_false, Bool.and_self, filter_cons_of_pos, decide_true, Bool.not_true, Bool.and_true,
    Bool.false_eq_true, not_false_eq_true, filter_cons_of_neg, filter_nil, cons_append, nil_append,
    Bool.and_false, looseObject, all_cons, all_nil, Bool.or_eq_true, Bool.and_eq_true]
  constructor
  · rintro (⟨h₁, h₂, h₃, herror, h₄, h₅, h₆, h₇, h₈, h₉, hstatus, hexit, hcode, hrestored⟩ |
      ⟨h₁, h₂, h₃, h₄, h₅, h₆, h₇, h₈, h₉, hstatus, hexit, herror, hcode, hrestored⟩ |
      ⟨h₁, h₂, h₃, h₄, h₅, h₆, h₇, h₈, h₉, hstatus, hexit, herror, hcode, hrestored⟩ |
      ⟨h₁, h₂, h₃, h₄, h₅, h₆, h₇, h₈, h₉, hstatus, hexit, herror, hcode, hrestored⟩ |
      ⟨h₁, h₂, h₃, h₄, h₅, h₆, h₇, h₈, h₉, hstatus, hexit, herror, hcode, hrestored⟩)
    · obtain ⟨error, herror⟩ := optional_string_iff.mp herror
      exact ⟨⟨h₁, h₂, h₃, h₄, h₅, h₆, h₇, h₈, h₉⟩, .succeeded, exitSucceeded, error, none, none,
        ⟨literal_iff.mp hstatus, hexit, herror, noValue_iff.mp hcode,
          noValue_iff.mp hrestored⟩, .succeeded⟩
    · obtain ⟨error, herror, hne⟩ := text_iff.mp herror
      obtain ⟨code, hcode, hcodes⟩ := nonRollback_code_iff.mp hcode
      exact ⟨⟨h₁, h₂, h₃, h₄, h₅, h₆, h₇, h₈, h₉⟩, .failed, exitFailed, some error, code, none,
        ⟨literal_iff.mp hstatus, hexit, herror, hcode, noValue_iff.mp hrestored⟩,
        .failed hne hcodes⟩
    · obtain ⟨error, herror, hne⟩ := text_iff.mp herror
      obtain ⟨version, hrestored, hversion⟩ := text_iff.mp hrestored
      exact ⟨⟨h₁, h₂, h₃, h₄, h₅, h₆, h₇, h₈, h₉⟩, .failed, exitFailed, some error,
        some rolledBackCode, some version, ⟨literal_iff.mp hstatus, hexit, herror,
          literal_iff.mp hcode, hrestored⟩, .rolledBack hne hversion⟩
    · obtain ⟨error, herror, hne⟩ := text_iff.mp herror
      obtain ⟨code, hcode, hcodes⟩ := nonRollback_code_iff.mp hcode
      exact ⟨⟨h₁, h₂, h₃, h₄, h₅, h₆, h₇, h₈, h₉⟩, .held, exitHeld, some error, code, none,
        ⟨literal_iff.mp hstatus, hexit, herror, hcode, noValue_iff.mp hrestored⟩, .held hne hcodes⟩
    · obtain ⟨error, herror, hne⟩ := text_iff.mp herror
      obtain ⟨code, hcode, hcodes⟩ := rollbackFailed_code_iff.mp hcode
      exact ⟨⟨h₁, h₂, h₃, h₄, h₅, h₆, h₇, h₈, h₉⟩, .failed, exitUnresolved, some error, code, none,
        ⟨literal_iff.mp hstatus, hexit, herror, hcode, noValue_iff.mp hrestored⟩,
        .unresolved hne hcodes⟩
  · rintro ⟨⟨h₁, h₂, h₃, h₄, h₅, h₆, h₇, h₈, h₉⟩, status, exitCode, error, code, restored,
      ⟨hstatus, hexit, herror, hcode, hrestored⟩, hpaired⟩
    cases hpaired with
    | succeeded =>
      exact .inl ⟨h₁, h₂, h₃, optional_string_iff.mpr ⟨_, herror⟩, h₄, h₅, h₆, h₇, h₈, h₉,
        literal_iff.mpr hstatus, hexit, noValue_iff.mpr hcode, noValue_iff.mpr hrestored⟩
    | failed hne hcodes =>
      exact .inr (.inl ⟨h₁, h₂, h₃, h₄, h₅, h₆, h₇, h₈, h₉, literal_iff.mpr hstatus, hexit,
        text_iff.mpr ⟨_, herror, hne⟩, nonRollback_code_iff.mpr ⟨_, hcode, hcodes⟩,
        noValue_iff.mpr hrestored⟩)
    | rolledBack hne hversion =>
      exact .inr (.inr (.inl ⟨h₁, h₂, h₃, h₄, h₅, h₆, h₇, h₈, h₉, literal_iff.mpr hstatus,
        hexit, text_iff.mpr ⟨_, herror, hne⟩, literal_iff.mpr hcode,
        text_iff.mpr ⟨_, hrestored, hversion⟩⟩))
    | held hne hcodes =>
      exact .inr (.inr (.inr (.inl ⟨h₁, h₂, h₃, h₄, h₅, h₆, h₇, h₈, h₉, literal_iff.mpr hstatus,
        hexit, text_iff.mpr ⟨_, herror, hne⟩, nonRollback_code_iff.mpr ⟨_, hcode, hcodes⟩,
        noValue_iff.mpr hrestored⟩)))
    | unresolved hne hcodes =>
      exact .inr (.inr (.inr (.inr ⟨h₁, h₂, h₃, h₄, h₅, h₆, h₇, h₈, h₉,
        literal_iff.mpr hstatus, hexit, text_iff.mpr ⟨_, herror, hne⟩,
        rollbackFailed_code_iff.mpr ⟨_, hcode, hcodes⟩, noValue_iff.mpr hrestored⟩)))

lemma exitCode_lt {status : ReceiptStatus} {exitCode : Nat} {error code restored : Option String}
    (h : Paired status exitCode error code restored) : exitCode < 2 ^ 8 := by
  cases h <;> decide

lemma variants_iff : (Common m ∧ ∃ status exitCode error errorCode restored,
        Variant m status exitCode error errorCode restored ∧
          Paired status exitCode error errorCode restored) ↔
      ∃ r, members.right m = some r ∧ r.validate.isOk = true := by
  simp only [isOk_validate, members_right]
  constructor
  · rintro ⟨hcommon, status, exitCode, error, code, restored, hvariant, hpaired⟩
    obtain ⟨version, hversion⟩ := optional_string_iff.mp hcommon.version
    obtain ⟨requestId, hid, hpattern⟩ := regex_iff.mp hcommon.requestId
    obtain ⟨installerVersion, hinstaller⟩ := string_iff.mp hcommon.installerVersion
    obtain ⟨runtimes, hruntimes⟩ := runtimes_right.mp hcommon.runtimes
    obtain ⟨processes, hprocesses, hidentified⟩ :=
      deadProcessIdentities_right.mp hcommon.deadProcessIdentities
    obtain ⟨running, hrunning⟩ : ∃ o, (optional "supervisorRunning" .bool bool_null).right
        m = some o := by
      simp only [optional_bool_right]
      rcases optional_iff.mp hcommon.supervisorRunning with hnone | hsome
      · exact ⟨none, hnone⟩
      · obtain ⟨b, hb⟩ := boolean_iff.mp hsome
        exact ⟨some b, hb⟩
    have hexit := (required_number_right (exitCode_lt hpaired)).mpr hvariant.exitCode
    refine ⟨⟨1, requestId, "upgrade", status, version, restored, error, code, running, runtimes,
      processes, installerReceiptProtocol, exitCode, installerVersion⟩, ⟨?_, ?_, ?_, ?_, ?_, ?_, ?_,
      ?_, hrunning, hruntimes, hprocesses, ?_, hexit, ?_⟩, rfl, rfl, rfl, hpattern, hpaired,
      hidentified⟩
    · exact (required_number_right (show 1 < 2 ^ 32 by decide)).mpr hcommon.schemaVersion
    · exact required_string_right.mpr hid
    · exact required_string_right.mpr (literal_iff.mp hcommon.operation)
    · exact required_right.mpr ⟨_, hvariant.status, status_right.mpr rfl⟩
    · exact optional_string_right.mpr hversion
    · exact optional_string_right.mpr hvariant.restored
    · exact optional_string_right.mpr hvariant.error
    · exact optional_string_right.mpr hvariant.errorCode
    · exact required_string_right.mpr (literal_iff.mp hcommon.protocol)
    · exact required_string_right.mpr hinstaller
  · rintro ⟨r, ⟨h₁, h₂, h₃, h₄, h₅, h₆, h₇, h₈, h₉, h₁₀, h₁₁, h₁₂, h₁₃, h₁₄⟩, hschema, hoperation,
      hprotocol, hpattern, hpaired, hidentified⟩
    rw [hschema] at h₁
    rw [hoperation] at h₃
    rw [hprotocol] at h₁₂
    obtain ⟨_, hstatus, hv⟩ := required_right.mp h₄
    rw [status_right.mp hv] at hstatus
    refine ⟨⟨?_, ?_, ?_, ?_, ?_, ?_, ?_, ?_, ?_⟩, r.status, r.exitCode, r.error, r.errorCode,
      r.restoredVersion, ⟨hstatus, ?_, ?_, ?_, ?_⟩, hpaired⟩
    · exact (required_number_right (by decide)).mp h₁
    · exact regex_iff.mpr ⟨_, required_string_right.mp h₂, hpattern⟩
    · exact optional_string_iff.mpr ⟨_, optional_string_right.mp h₅⟩
    · rw [optional_iff, boolean_iff, optional_bool_right.mp h₉]
      cases r.supervisorRunning <;> simp
    · exact runtimes_right.mpr ⟨_, h₁₀⟩
    · exact literal_iff.mpr (required_string_right.mp h₃)
    · exact literal_iff.mpr (required_string_right.mp h₁₂)
    · exact string_iff.mpr ⟨_, required_string_right.mp h₁₄⟩
    · exact deadProcessIdentities_right.mpr ⟨_, h₁₁, hidentified⟩
    · exact (required_number_right (exitCode_lt hpaired)).mp h₁₃
    · exact optional_string_right.mp h₇
    · exact optional_string_right.mp h₈
    · exact optional_string_right.mp h₆

/-- The schema accepts what its reader reads. -/
theorem schema_right (v : Document) :
    InstallerReceiptSchema (some v) = (receiptReaders.right v).isSome := by
  cases v with
  | obj fields =>
    rw [Bool.eq_iff_iff, schema_iff, variants_iff]
    exact Option.isSome_filter_iff.symm
  | _ => rfl

/-! ### What the installer writes -/

lemma lookup_unlessNone {k : String} {value : Option Document} :
    (unlessNone key value).lookup k = if k = key then value else none := by
  cases value with
  | none => simp [unlessNone]
  | some v =>
    by_cases hk : k = key
    · simp [unlessNone, hk]
    · have hne : (k == key) = false := by simpa using hk
      simp [unlessNone, lookup_cons, hne, hk]

/-- The members of a receipt on file. -/
structure Written (r : ReceiptFields) (m : Members) : Prop where
  schemaVersion : m "schema_version" = some (.int r.schemaVersion)
  requestId : m "request_id" = some (.str r.requestId)
  operation : m "operation" = some (.str r.operation)
  status : m "status" = some (.str r.status.name)
  version : m "version" = r.version.map .str
  restored : m "restoredVersion" = r.restoredVersion.map .str
  error : m "error" = r.error.map .str
  errorCode : m "errorCode" = r.errorCode.map .str
  supervisorRunning : m "supervisorRunning" = r.supervisorRunning.map .bool
  runtimes : m "runtimes" = r.runtimes.map fun rs => .arr (rs.map RuntimeState.serialize)
  deadProcessIdentities : m "deadProcessIdentities" =
    r.deadProcessIdentities.map fun ps => .arr (ps.map DeadProcessIdentity.serialize)
  protocol : m "protocol" = some (.str r.protocol)
  exitCode : m "exit_code" = some (.int r.exitCode)
  installerVersion : m "installer_version" = some (.str r.installerVersion)

lemma written_serialize (r : ReceiptFields) :
    ∃ fields, r.serialize = .obj fields ∧ Written r fun key => fields.lookup key := by
  refine ⟨_, rfl, ?_⟩
  constructor <;> simp [lookup_append, lookup_cons, lookup_unlessNone]

/-- `pid` is a `u32`. -/
def PidsFit (r : ReceiptFields) : Prop :=
  ∀ ps ∈ r.deadProcessIdentities, ∀ p ∈ ps, p.pid < 2 ^ 32

lemma runtimeState_plain (r : RuntimeState) : runtimeState.Plain r.serialize r :=
  .andThen (.struct _ _) <|
    .seq (.map RuntimeState.mk (.required rfl (.string _))) (.required rfl (.bool _))

lemma deadProcessIdentity_plain {p : DeadProcessIdentity} (h : p.pid < 2 ^ 32) :
    deadProcessIdentity.Plain p.serialize p :=
  .andThen (.struct _ _) <|
    .seq (.seq (.map DeadProcessIdentity.mk (.required rfl (.natural _ h)))
      (.required rfl (.string _))) (.required rfl (.string _))

lemma status_plain (st : ReceiptStatus) : status.Plain (.str st.name) st := by
  refine .andThen (a := st.name) ⟨rfl, rfl, rfl⟩ (.same ?_)
  cases st <;> rfl

lemma Written.plain (h : Written r m) (hvalid : r.validate.isOk = true)
    (hpids : PidsFit r) : members.Plain m r := by
  obtain ⟨hschema, -, -, -, hpaired, -⟩ := isOk_validate.mp hvalid
  have hversion : r.schemaVersion < 2 ^ 32 := by
    rw [hschema]
    decide
  have hprocesses (ps : List DeadProcessIdentity) (hps : ps ∈ r.deadProcessIdentities) :
      (array deadProcessIdentity).Plain (.arr (ps.map DeadProcessIdentity.serialize)) ps :=
    .array (.list fun p hp => deadProcessIdentity_plain (hpids ps hps p hp))
  exact .seq (.seq (.seq (.seq (.seq (.seq (.seq (.seq (.seq (.seq (.seq (.seq (.seq
    (.map ReceiptFields.mk (.required h.schemaVersion (.natural _ hversion)))
    (.required h.requestId (.string _))) (.required h.operation (.string _)))
    (.required h.status (status_plain _))) (.optional h.version fun s _ => .string s))
    (.optional h.restored fun s _ => .string s)) (.optional h.error fun s _ => .string s))
    (.optional h.errorCode fun s _ => .string s))
    (.optional h.supervisorRunning fun b _ => .bool b))
    (.optional h.runtimes fun rs _ => .array (.list fun r _ => runtimeState_plain r)))
    (.optional h.deadProcessIdentities hprocesses)) (.required h.protocol (.string _)))
    (.required h.exitCode (.natural _ (exitCode_lt hpaired))))
    (.required h.installerVersion (.string _))

lemma serialize_plain (hvalid : r.validate.isOk = true) (hpids : PidsFit r) :
    receiptReaders.Plain r.serialize r := by
  obtain ⟨fields, hserialize, hwritten⟩ := written_serialize r
  rw [hserialize]
  exact .filter (.andThen (.struct _ _) (hwritten.plain hvalid hpids)) hvalid

lemma newFields_processes (requestId : String) (outcome : ReceiptOutcome)
    (processes : List DeadProcessIdentity) :
    (UpgradeReceipt.newFields requestId outcome processes).deadProcessIdentities =
      if processes.isEmpty then none else some processes := by
  cases outcome <;> rfl

end ReceiptReaders

open ReceiptReaders in
/-- The two readers agree on a value exactly if it is no receipt even to a reader that takes every
form that either of them takes, or has forms of both or of neither. What the installer writes, both
accept, and the installer reads it back. -/
theorem receipt_readers_agree_iff (v : Document) (requestId : String) (outcome : ReceiptOutcome)
    (processes : List DeadProcessIdentity) (receipt : UpgradeReceipt) :
    (((UpgradeReceipt.deserialize v).isSome = true ↔ InstallerReceiptSchema (some v) = true) ↔
      ((receiptReaders.lenient v).isSome = true →
        receiptReaders.leftOnly v = receiptReaders.rightOnly v)) ∧
    ((∀ p ∈ processes, p.pid < 2 ^ 32) →
      UpgradeReceipt.new requestId outcome processes = .ok receipt →
      InstallerReceiptSchema (some receipt.fields.serialize) = true ∧
        UpgradeReceipt.deserialize receipt.fields.serialize = some receipt) := by
  constructor
  · rw [UpgradeReceipt.isSome_deserialize, schema_right]
    exact receiptReaders.agree_iff v
  · intro hpids hnew
    have hfits : PidsFit receipt.fields := by
      intro ps hps p hp
      refine hpids p ?_
      rw [UpgradeReceipt.ofFields_eq_ok.mp hnew] at hps
      have hprocesses := newFields_processes requestId outcome processes
      rw [hprocesses] at hps
      split_ifs at hps
      · exact nomatch hps
      · cases hps
        exact hp
    have hplain := serialize_plain (Except.isOk_iff.mpr receipt.valid) hfits
    rw [schema_right, hplain.right, UpgradeReceipt.deserialize_eq_some, hplain.left]
    exact ⟨rfl, rfl⟩

/-- The receipt of an upgrade that was rolled back, after one process was stopped. -/
theorem receipt_readers_agree_rolledBack :
    ∃ receipt, UpgradeReceipt.new "0f8b6d5e-2a41-4c3b-9e7d-1a2b3c4d5e6f"
        (.rolledBack "Computer supervisor did not report 0.2.0" "0.1.0")
        [⟨4242, "1722500000.000001", "/opt/coforge-computer"⟩] = .ok receipt ∧
      InstallerReceiptSchema (some receipt.fields.serialize) = true ∧
        UpgradeReceipt.deserialize receipt.fields.serialize = some receipt := by
  let receipt : UpgradeReceipt :=
    ⟨UpgradeReceipt.newFields "0f8b6d5e-2a41-4c3b-9e7d-1a2b3c4d5e6f"
      (.rolledBack "Computer supervisor did not report 0.2.0" "0.1.0")
      [⟨4242, "1722500000.000001", "/opt/coforge-computer"⟩], by decide⟩
  have hnew : UpgradeReceipt.ofFields receipt.fields = .ok receipt :=
    UpgradeReceipt.ofFields_eq_ok.mpr rfl
  exact ⟨receipt, hnew, (receipt_readers_agree_iff .null _ _ _ receipt).2 (by simp) hnew⟩

/-- A receipt whose version is `null`. -/
def receiptOfNoVersion : Document :=
  .obj [("schema_version", .int 1), ("request_id", .str "0f8b6d5e-2a41-4c3b-9e7d-1a2b3c4d5e6f"),
    ("operation", .str "upgrade"), ("status", .str "succeeded"), ("version", .null), ("protocol",
    .str "coforge-installer/v1"), ("exit_code", .int 0), ("installer_version", .str "0.1.0")]

/-- The installer takes it, and the schema does not. -/
theorem receipt_readers_differ : (UpgradeReceipt.deserialize receiptOfNoVersion).isSome = true ∧
      InstallerReceiptSchema (some receiptOfNoVersion) = false := by
  decide

end Coforge.Installer
