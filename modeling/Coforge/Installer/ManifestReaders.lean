import Coforge.Installer.Manifest

/-!
# Where the two readers of a manifest agree

Whatever the installer accepts, the Computer accepts too. The other way round it takes numbers that
are written as integers, platforms by name, and a protocol number that is one.
-/

namespace Coforge.Installer

open Option

namespace ManifestReaders

/-! ### Member by member -/

def gzip : Twin Document GzipObject :=
  ((Twin.required "binary" .string).map GzipObject.mk
      |>.seq Identity.members
      |>.comap Document.get?).filter
    fun g => isValidIdentity g.identity && g.binary = computerGzip

def computer : Twin Document ComputerArtifact :=
  ((Twin.required "binary" .string).map ComputerArtifact.mk
      |>.seq Identity.members
      |>.seq (.required "gzip" gzip)
      |>.comap Document.get?).filter
    fun c => isValidIdentity c.identity && c.binary = computerBinary

def photonWasm : Twin Document NamedArtifact :=
  ((Twin.required "file" .string).map NamedArtifact.mk
      |>.seq Identity.members
      |>.comap Document.get?).filter
    fun n => isValidIdentity n.identity && n.file = photonWasmFile

/-- The member of an object with no other. -/
def onlyComputer (v : Document) : Option Document :=
  match v with
  | .obj fields => if fields.length = 1 then fields.lookup "computer" else none
  | _           => none

def platform : Twin Document ReleasePlatform :=
  (Twin.same onlyComputer).andThen (computer.map ReleasePlatform.mk)

def entry : Twin (String × Document) (String × ReleasePlatform) :=
  (Twin.same fun f => some f.1).map Prod.mk |>.seq (platform.comap Prod.snd)

/-- The entries of an object; one of the readers takes those of an array, too. -/
def entries : Twin Document (List (String × Document)) where
  left v :=
    match v with
    | .obj fields => some fields
    | _           => none
  right := Updater.entries
  lenient := Updater.entries
  leftOnly _ := false
  rightOnly := Document.isArr
  left_eq v := by cases v <;> rfl
  right_eq _ := rfl

/-- What both readers take from a manifest. -/
structure Parts where
  platforms : List (String × ReleasePlatform)
  photonWasm : NamedArtifact

lemma whole_u64 : 2 ^ 64 ≤ 2 ^ 64 := le_rfl

def parts (expectedVersion : String) : Twin Serde.Members Parts :=
  ((Twin.required "schema_version" (.natural 64 (2 ^ 64) whole_u64)).filter (· = 2)).map
      (fun _ _ _ _ platforms photonWasm _ => Parts.mk platforms photonWasm)
    |>.seq ((Twin.required "version" .string).filter (· = expectedVersion))
    |>.seq (.required "commit" .string)
    |>.seq (.required "buildDate" .string)
    |>.seq (.required "platforms" (entries.andThen entry.list))
    |>.seq (.required "photonWasm" photonWasm)
    |>.seq (.leftChecks (Serde.optional "installer_protocol" (Serde.unsigned 32)))

end ManifestReaders

/-- The two readers of a manifest. -/
def manifestReaders (expectedVersion : String) : Twin Document ManifestReaders.Parts :=
  (ManifestReaders.parts expectedVersion).comap Document.get?

namespace ManifestReaders

open Serde

/-! ### The installer -/

section Installer

variable {v : Document}

lemma obj_of_get? {key : String} {d : Document} (h : v.get? key = some d) :
    ∃ fields, v = .obj fields := by
  cases v with
  | obj fields => exact ⟨fields, rfl⟩
  | _ => exact nomatch h

lemma map_bind {α : Type} {f : Serde.Members → Option α} (hf : f (fun _ => none) = none) :
    (Serde.map v).bind f = f v.get? := by
  cases v with
  | obj fields => rfl
  | _ => exact hf.symm

variable {x : Option String} {y : Option ArtifactIdentity}

lemma mk_gzip {g : GzipObject} :
    GzipObject.mk <$> x <*> y = some g ↔ x = some g.binary ∧ y = some g.identity := by
  simp only [seq_eq_some, map_eq_map, map_eq_some_iff]
  constructor
  · rintro ⟨_, _, ⟨_, hx, rfl⟩, hy, rfl⟩
    exact ⟨hx, hy⟩
  · rintro ⟨hx, hy⟩
    exact ⟨_, _, ⟨_, hx, rfl⟩, hy, rfl⟩

lemma mk_named {n : NamedArtifact} :
    NamedArtifact.mk <$> x <*> y = some n ↔ x = some n.file ∧ y = some n.identity := by
  simp only [seq_eq_some, map_eq_map, map_eq_some_iff]
  constructor
  · rintro ⟨_, _, ⟨_, hx, rfl⟩, hy, rfl⟩
    exact ⟨hx, hy⟩
  · rintro ⟨hx, hy⟩
    exact ⟨_, _, ⟨_, hx, rfl⟩, hy, rfl⟩

lemma mk_computer {z : Option GzipObject} {c : ComputerArtifact} :
    ComputerArtifact.mk <$> x <*> y <*> z = some c ↔
      x = some c.binary ∧ y = some c.identity ∧ z = some c.gzip := by
  simp only [seq_eq_some, map_eq_map, map_eq_some_iff]
  constructor
  · rintro ⟨_, _, ⟨_, _, ⟨_, hx, rfl⟩, hy, rfl⟩, hz, rfl⟩
    exact ⟨hx, hy, hz⟩
  · rintro ⟨hx, hy, hz⟩
    exact ⟨_, _, ⟨_, _, ⟨_, hx, rfl⟩, hy, rfl⟩, hz, rfl⟩

lemma isSome_identity : (identity v).isSome = true ↔
    ∃ i, ArtifactIdentity.ofMembers v.get? = some i ∧ isValidIdentity i = true :=
  isSome_filter_iff

lemma gzip_left {g : GzipObject} : gzip.left v = some g ↔
    ((identity v).isSome = true ∧ (v.get? "binary").bind Serde.string = some computerGzip) ∧
      GzipObject.deserialize v = some g := by
  have hleft : gzip.left v = some g ↔ ((v.get? "binary").bind string = some g.binary ∧
      ArtifactIdentity.ofMembers v.get? = some g.identity) ∧
      isValidIdentity g.identity = true ∧ g.binary = computerGzip := by
    rw [← mk_gzip]
    refine filter_eq_some_iff.trans (and_congr Iff.rfl ?_)
    rw [Bool.and_eq_true, decide_eq_true_eq]
  have hread : GzipObject.deserialize v = some g ↔
      (v.get? "binary").bind string = some g.binary ∧
        ArtifactIdentity.ofMembers v.get? = some g.identity := by
    rw [GzipObject.deserialize, map_bind rfl, mk_gzip]
    rfl
  rw [hleft, hread, isSome_identity]
  constructor
  · rintro ⟨⟨hbinary, hidentity⟩, hvalid, hname⟩
    exact ⟨⟨⟨_, hidentity, hvalid⟩, hname ▸ hbinary⟩, hbinary, hidentity⟩
  · rintro ⟨⟨⟨i, hi, hvalid⟩, hname⟩, hbinary, hidentity⟩
    cases hi.symm.trans hidentity
    exact ⟨⟨hbinary, hidentity⟩, hvalid, some.inj (hbinary.symm.trans hname)⟩

lemma photonWasm_left {n : NamedArtifact} : photonWasm.left v = some n ↔
    validPhotonWasm (some v) = true ∧ NamedArtifact.deserialize v = some n := by
  have hleft : photonWasm.left v = some n ↔ ((v.get? "file").bind string = some n.file ∧
      ArtifactIdentity.ofMembers v.get? = some n.identity) ∧
      isValidIdentity n.identity = true ∧ n.file = photonWasmFile := by
    rw [← mk_named]
    refine filter_eq_some_iff.trans (and_congr Iff.rfl ?_)
    rw [Bool.and_eq_true, decide_eq_true_eq]
  have hread : NamedArtifact.deserialize v = some n ↔
      (v.get? "file").bind string = some n.file ∧
        ArtifactIdentity.ofMembers v.get? = some n.identity := by
    rw [NamedArtifact.deserialize, map_bind rfl, mk_named]
    rfl
  rw [hleft, hread, validPhotonWasm, any_some, Bool.and_eq_true, decide_eq_true_eq, isSome_identity]
  constructor
  · rintro ⟨⟨hfile, hidentity⟩, hvalid, hname⟩
    exact ⟨⟨hname ▸ hfile, _, hidentity, hvalid⟩, hfile, hidentity⟩
  · rintro ⟨⟨hname, i, hi, hvalid⟩, hfile, hidentity⟩
    cases hi.symm.trans hidentity
    exact ⟨⟨hfile, hidentity⟩, hvalid, some.inj (hfile.symm.trans hname)⟩

lemma computer_left {c : ComputerArtifact} : computer.left v = some c ↔
    validComputer (some v) = true ∧ ComputerArtifact.deserialize v = some c := by
  have hleft : computer.left v = some c ↔ ((v.get? "binary").bind string = some c.binary ∧
      ArtifactIdentity.ofMembers v.get? = some c.identity ∧
      (v.get? "gzip").bind gzip.left = some c.gzip) ∧
      isValidIdentity c.identity = true ∧ c.binary = computerBinary := by
    rw [← mk_computer]
    refine filter_eq_some_iff.trans (and_congr Iff.rfl ?_)
    rw [Bool.and_eq_true, decide_eq_true_eq]
  have hread : ComputerArtifact.deserialize v = some c ↔
      (v.get? "binary").bind string = some c.binary ∧
        ArtifactIdentity.ofMembers v.get? = some c.identity ∧
        (v.get? "gzip").bind GzipObject.deserialize = some c.gzip := by
    rw [ComputerArtifact.deserialize, map_bind rfl, mk_computer]
    rfl
  have hvalid : validComputer (some v) = true ↔ ((identity v).isSome = true ∧
      (v.get? "binary").bind string = some computerBinary) ∧
      ∃ g, v.get? "gzip" = some g ∧ (identity g).isSome = true ∧
        (g.get? "binary").bind string = some computerGzip := by
    simp [validComputer, any_eq_true]
  rw [hleft, hread, hvalid, isSome_identity]
  simp only [bind_eq_some_iff (x := v.get? "gzip"), gzip_left]
  constructor
  · rintro ⟨⟨hbinary, hidentity, g, hg, ⟨hsome, hgzip⟩, hread⟩, hvalid, hname⟩
    exact ⟨⟨⟨⟨_, hidentity, hvalid⟩, hname ▸ hbinary⟩, g, hg, hsome, hgzip⟩, hbinary, hidentity, g,
      hg, hread⟩
  · rintro ⟨⟨⟨⟨i, hi, hvalid⟩, hname⟩, g, hg, hgzip⟩, hbinary, hidentity, g', hg', hread⟩
    cases hi.symm.trans hidentity
    cases hg.symm.trans hg'
    exact ⟨⟨hbinary, hidentity, g, hg, hgzip, hread⟩, hvalid, some.inj (hbinary.symm.trans hname)⟩

lemma platform_left {r : ReleasePlatform} : platform.left v = some r ↔
    validPlatformEntry v = true ∧ ReleasePlatform.deserialize v = some r := by
  have hmk (x : Option ComputerArtifact) : ReleasePlatform.mk <$> x = some r ↔
      x = some r.computer := by
    cases x with
    | none => exact ⟨by intros; contradiction, by intros; contradiction⟩
    | some c =>
      constructor
      · intro h
        rw [← some.inj h]
      · intro h
        rw [some.inj h]
        rfl
  cases v with
  | obj fields =>
    change (onlyComputer (.obj fields)).bind (fun c => ReleasePlatform.mk <$> computer.left c) =
      some r ↔ _ ∧ ReleasePlatform.mk <$> (fields.lookup "computer").bind
        ComputerArtifact.deserialize = some r
    rw [hmk, onlyComputer, validPlatformEntry]
    by_cases hone : fields.length = 1
    · rw [if_pos hone, decide_eq_true hone, Bool.true_and]
      cases fields.lookup "computer" with
      | none => simp [validComputer]
      | some c =>
        rw [bind_some, hmk, bind_some]
        exact computer_left
    · rw [if_neg hone, decide_eq_false hone]
      simp
  | _ => exact ⟨by intros; contradiction, fun h => by cases h.1⟩

lemma entry_left (f : String × Document) (x : String × ReleasePlatform) :
    entry.left f = some x ↔ validPlatformEntry f.2 = true ∧
      (Prod.mk f.1) <$> ReleasePlatform.deserialize f.2 = some x := by
  have hleft : entry.left f = (Prod.mk f.1) <$> platform.left f.2 := by
    change Prod.mk <$> some f.1 <*> platform.left f.2 = _
    cases platform.left f.2 <;> rfl
  rw [hleft]
  simp only [map_eq_map, map_eq_some_iff, platform_left]
  constructor
  · rintro ⟨r, ⟨hvalid, hread⟩, heq⟩
    exact ⟨hvalid, r, hread, heq⟩
  · rintro ⟨hvalid, r, hread, heq⟩
    exact ⟨r, ⟨hvalid, hread⟩, heq⟩

lemma isOk_checkEntries {valid : Document → Bool} {fields : List (String × Document)} :
    (checkEntries valid fields).isOk = true ↔ ∀ f ∈ fields, valid f.2 = true := by
  induction fields with
  | nil => simp [checkEntries, Except.isOk, Except.toBool]
  | cons f fields ih =>
    rw [checkEntries, Except.isOk_guard, ih, List.forall_mem_cons]
    simp

variable {expectedVersion : String}

lemma manifest_left {p : Parts} : (manifestReaders expectedVersion).left v = some p ↔
      (v.get? "schema_version").bind (Serde.unsigned 64) = some 2 ∧
      (v.get? "version").bind Serde.string = some expectedVersion ∧
      (∃ c, (v.get? "commit").bind Serde.string = some c) ∧
      (∃ b, (v.get? "buildDate").bind Serde.string = some b) ∧
      (∃ fields, v.get? "platforms" = some (.obj fields) ∧
        fields.mapM entry.left = some p.platforms) ∧
      (∃ d, v.get? "photonWasm" = some d ∧ photonWasm.left d = some p.photonWasm) ∧
      ∃ i, Serde.optional "installer_protocol" (Serde.unsigned 32) v.get? = some i := by
  have hplatforms (ps : List (String × ReleasePlatform)) :
      required "platforms" (entries.andThen entry.list).left v.get? = some ps ↔
        ∃ fields, v.get? "platforms" = some (.obj fields) ∧
          fields.mapM entry.left = some ps := by
    rw [required, bind_eq_some_iff]
    constructor
    · rintro ⟨d, hd, h⟩
      cases d with
      | obj fields => exact ⟨fields, hd, h⟩
      | _ => exact nomatch h
    · rintro ⟨fields, hfields, h⟩
      exact ⟨_, hfields, h⟩
  simp only [manifestReaders, parts, Twin.comap, Twin.seq, Twin.map, Twin.filter, Twin.required,
    Twin.leftChecks, seq_eq_some, map_eq_map, map_eq_some_iff, hplatforms, filter_eq_some_iff]
  constructor
  · rintro ⟨_, _, ⟨_, _, ⟨_, _, ⟨_, _, ⟨_, _, ⟨_, _, ⟨n, ⟨hschema, hn⟩, rfl⟩, ⟨hversion, hs⟩, rfl⟩,
      hcommit, rfl⟩, hdate, rfl⟩, hplat, rfl⟩, hphoton, rfl⟩, ⟨i, hi, -⟩, rfl⟩
    obtain rfl := of_decide_eq_true hn
    obtain rfl := of_decide_eq_true hs
    exact ⟨hschema, hversion, ⟨_, hcommit⟩, ⟨_, hdate⟩, hplat, bind_eq_some_iff.mp hphoton, i, hi⟩
  · rintro ⟨hschema, hversion, ⟨c, hcommit⟩, ⟨b, hdate⟩, hplat, hphoton, i, hi⟩
    exact ⟨_, (), ⟨_, _, ⟨_, _, ⟨_, _, ⟨_, _, ⟨_, _, ⟨2, ⟨hschema, rfl⟩, rfl⟩,
      ⟨hversion, decide_eq_true rfl⟩, rfl⟩, hcommit, rfl⟩, hdate, rfl⟩, hplat, rfl⟩,
      bind_eq_some_iff.mpr hphoton, rfl⟩, ⟨i, hi, trivial⟩, rfl⟩

lemma deserialize_obj {fields : List (String × Document)} {m : ReleaseManifest} :
    ReleaseManifest.deserialize (.obj fields) = some m ↔
      (fields.lookup "schema_version").bind (Serde.unsigned 32) = some m.schemaVersion ∧
      (fields.lookup "version").bind Serde.string = some m.version ∧
      (fields.lookup "commit").bind Serde.string = some m.commit ∧
      (fields.lookup "buildDate").bind Serde.string = some m.buildDate ∧
      (fields.lookup "platforms").bind deserializePlatforms = some m.platforms ∧
      (fields.lookup "photonWasm").bind NamedArtifact.deserialize = some m.photonWasm ∧
      Serde.optional "installer_protocol" (Serde.unsigned 32) (fun key => fields.lookup key) =
        some m.installerProtocol := by
  simp only [ReleaseManifest.deserialize, struct, bind_some, required,
    seq_eq_some, map_eq_map, map_eq_some_iff]
  constructor
  · rintro ⟨_, _, ⟨_, _, ⟨_, _, ⟨_, _, ⟨_, _, ⟨_, _, ⟨_, h₁, rfl⟩, h₂, rfl⟩, h₃, rfl⟩, h₄, rfl⟩, h₅,
      rfl⟩, h₆, rfl⟩, h₇, rfl⟩
    exact ⟨h₁, h₂, h₃, h₄, h₅, h₆, h₇⟩
  · rintro ⟨h₁, h₂, h₃, h₄, h₅, h₆, h₇⟩
    exact ⟨_, _, ⟨_, _, ⟨_, _, ⟨_, _, ⟨_, _, ⟨_, _, ⟨_, h₁, rfl⟩, h₂, rfl⟩, h₃, rfl⟩, h₄, rfl⟩, h₅,
      rfl⟩, h₆, rfl⟩, h₇, rfl⟩

lemma parse_eq_ok {m : ReleaseManifest} : parseReleaseManifest v expectedVersion = .ok m ↔
      (v.get? "schema_version").bind (Serde.unsigned 64) = some 2 ∧
      (v.get? "version").bind Serde.string = some expectedVersion ∧
      (∃ c, (v.get? "commit").bind Serde.string = some c) ∧
      (∃ b, (v.get? "buildDate").bind Serde.string = some b) ∧
      (∃ fields, v.get? "platforms" = some (.obj fields) ∧
        ∀ f ∈ fields, validPlatformEntry f.2 = true) ∧
      validPhotonWasm (v.get? "photonWasm") = true ∧ ReleaseManifest.deserialize v = some m := by
  have htext (key : String) : ¬((v.get? key).bind string).isNone = true ↔
      ∃ s, (v.get? key).bind string = some s := by
    cases (v.get? key).bind string <;> simp
  rw [parseReleaseManifest]
  constructor
  · intro h
    dsimp only at h
    split_ifs at h with hinvalid hversion
    simp only [not_or, not_not, htext, Bool.not_eq_false] at hinvalid hversion
    obtain ⟨hschema, ⟨version, hv⟩, hcommit, hdate, hplatforms, hphoton⟩ := hinvalid
    rw [hv, getD_some] at hversion
    subst hversion
    cases hentries : v.get? "platforms" with
    | none =>
      rw [hentries] at hplatforms
      exact absurd rfl hplatforms
    | some d =>
      cases d with
      | obj fields =>
        rw [hentries] at h
        cases hcheck : checkEntries validPlatformEntry fields with
        | error e =>
          rw [getD_some, hcheck] at h
          exact nomatch h
        | ok _ =>
          rw [getD_some, hcheck] at h
          have hentry := isOk_checkEntries.mp (Except.isOk_iff.mpr hcheck)
          cases hread : ReleaseManifest.deserialize v with
          | none =>
            rw [hread] at h
            exact nomatch h
          | some m' =>
            rw [hread] at h
            obtain rfl : m' = m := Except.ok.inj h
            exact ⟨hschema, hv, hcommit, hdate, ⟨fields, rfl, hentry⟩, hphoton, rfl⟩
      | _ =>
        rw [hentries] at hplatforms
        exact absurd rfl hplatforms
  · rintro ⟨hschema, hversion, hcommit, hdate, ⟨fields, hfields, hentry⟩, hphoton, hread⟩
    have hcheck : checkEntries validPlatformEntry fields = .ok () :=
      Except.isOk_iff.mp (isOk_checkEntries.mpr hentry)
    have hvalid : ¬((v.get? "schema_version").bind (unsigned 64) ≠ some 2 ∨
        ((v.get? "version").bind string).isNone ∨
        ((v.get? "commit").bind string).isNone ∨
        ((v.get? "buildDate").bind string).isNone ∨ (some fields).isNone ∨
        validPhotonWasm (v.get? "photonWasm") = false) := by
      simp only [not_or, not_not, htext, Bool.not_eq_false]
      exact ⟨hschema, ⟨_, hversion⟩, hcommit, hdate, nofun, hphoton⟩
    simp only [hfields]
    rw [if_neg hvalid, hversion, getD_some, if_neg (not_not.mpr rfl), getD_some, hcheck, hread]
    rfl

/-- The installer accepts what its reader reads, and takes from it what the reader finds. -/
lemma parse_left {p : Parts} : (manifestReaders expectedVersion).left v = some p ↔
      ∃ m, parseReleaseManifest v expectedVersion = .ok m ∧ m.platforms = p.platforms ∧
        m.photonWasm = p.photonWasm := by
  have hentries (fields : List (String × Document)) (ps : List (String × ReleasePlatform)) :
      fields.mapM entry.left = some ps ↔ (∀ f ∈ fields, validPlatformEntry f.2 = true) ∧
        deserializePlatforms (.obj fields) = some ps :=
    Document.mapM_check entry_left fields ps
  simp only [manifest_left, parse_eq_ok, hentries, photonWasm_left]
  constructor
  · rintro ⟨hschema, hversion, ⟨c, hcommit⟩, ⟨b, hdate⟩, ⟨fields, hfields, hvalid, hplatforms⟩,
      ⟨d, hd, hphoton, hnamed⟩, i, hprotocol⟩
    obtain ⟨members, rfl⟩ := obj_of_get? hfields
    have hschema32 : (members.lookup "schema_version").bind (unsigned 32) = some 2 := by
      obtain ⟨n, hn, htwo⟩ := bind_eq_some_iff.mp hschema
      obtain ⟨rfl, -⟩ := unsigned_eq_some.mp htwo
      exact bind_eq_some_iff.mpr ⟨_, hn, rfl⟩
    refine ⟨⟨2, expectedVersion, c, b, p.platforms, p.photonWasm, i⟩,
      ⟨hschema, hversion, ⟨c, hcommit⟩, ⟨b, hdate⟩, ⟨fields, hfields, hvalid⟩, ?_, ?_⟩, rfl, rfl⟩
    · rw [hd]
      exact hphoton
    · exact deserialize_obj.mpr ⟨hschema32, hversion, hcommit, hdate, bind_eq_some_iff.mpr ⟨_,
        hfields, hplatforms⟩, bind_eq_some_iff.mpr ⟨_, hd, hnamed⟩, hprotocol⟩
  · rintro ⟨m, ⟨hschema, hversion, hcommit, hdate, ⟨fields, hfields, hvalid⟩, hphoton, hread⟩,
      hplatforms, hwasm⟩
    obtain ⟨members, rfl⟩ := obj_of_get? hfields
    obtain ⟨-, -, -, -, hps, hnamed, hprotocol⟩ := deserialize_obj.mp hread
    obtain ⟨_, hfields', hps⟩ := bind_eq_some_iff.mp hps
    cases hfields.symm.trans hfields'
    obtain ⟨d, hd, hnamed⟩ := bind_eq_some_iff.mp hnamed
    rw [Document.get?_obj, hd] at hphoton
    exact ⟨hschema, hversion, hcommit, hdate, ⟨fields, hfields, hvalid, hplatforms ▸ hps⟩,
      ⟨d, hd, hphoton, hwasm ▸ hnamed⟩, _, hprotocol⟩

end Installer

/-! ### The Computer -/

section Computer

variable {v : Document}

open Updater

variable {o : Option Document}

lemma isText_iff {text : String} :
    isText o text = true ↔ o.bind Serde.string = some text := decide_eq_true_iff

lemma validIdentity_iff : validIdentity o = true ↔
    ∃ d i, o = some d ∧ identityOf d = some i ∧ isValidIdentity i = true := by
  cases o with
  | none => exact ⟨nofun, nofun⟩
  | some d =>
    rw [Identity.validIdentity_some]
    refine isSome_filter_iff.trans ⟨?_, ?_⟩
    · rintro ⟨i, hi, hvalid⟩
      exact ⟨d, i, rfl, hi, hvalid⟩
    · rintro ⟨_, i, hd, hi, hvalid⟩
      cases hd
      exact ⟨i, hi, hvalid⟩

lemma gzip_right {g : GzipObject} : gzip.right v = some g ↔
    gzipOf v = some g ∧ isValidIdentity g.identity = true ∧ g.binary = computerGzip := by
  refine filter_eq_some_iff.trans (and_congr Iff.rfl ?_)
  rw [Bool.and_eq_true, decide_eq_true_eq]

lemma photonWasm_right {n : NamedArtifact} : photonWasm.right v = some n ↔
    NamedArtifact.mk <$> (v.get? "file").bind Serde.string <*> identityOf v = some n ∧
      isValidIdentity n.identity = true ∧ n.file = photonWasmFile := by
  refine filter_eq_some_iff.trans (and_congr Iff.rfl ?_)
  rw [Bool.and_eq_true, decide_eq_true_eq]

lemma computer_right {c : ComputerArtifact} : computer.right v = some c ↔
    ((v.get? "binary").bind Serde.string = some c.binary ∧ identityOf v = some c.identity ∧
      (v.get? "gzip").bind gzip.right = some c.gzip) ∧
      isValidIdentity c.identity = true ∧ c.binary = computerBinary := by
  rw [← mk_computer]
  refine filter_eq_some_iff.trans (and_congr Iff.rfl ?_)
  rw [Bool.and_eq_true, decide_eq_true_eq]

lemma validPhotonWasmEntry_iff :
    validPhotonWasmEntry o = true ↔ ∃ d n, o = some d ∧ photonWasm.right d = some n := by
  simp only [validPhotonWasmEntry, Bool.and_eq_true, isText_iff, validIdentity_iff,
    photonWasm_right, mk_named]
  constructor
  · rintro ⟨⟨-, hfile⟩, d, i, rfl, hi, hvalid⟩
    exact ⟨d, ⟨_, i⟩, rfl, ⟨hfile, hi⟩, hvalid, rfl⟩
  · rintro ⟨d, n, rfl, ⟨hfile, hi⟩, hvalid, hname⟩
    rw [hname] at hfile
    refine ⟨⟨?_, hfile⟩, d, n.identity, rfl, hi, hvalid⟩
    obtain ⟨w, hw, -⟩ := bind_eq_some_iff.mp hfile
    obtain ⟨fields, rfl⟩ := obj_of_get? hw
    rfl

lemma validArtifact_iff : validArtifact o computerBinary = true ↔
    ∃ d c, o = some d ∧ computer.right d = some c := by
  simp only [validArtifact, Bool.and_eq_true, isText_iff, validIdentity_iff, computer_right]
  constructor
  · rintro ⟨⟨⟨⟨d, i, rfl, hi, hvalid⟩, hbinary⟩, g, j, hg, hj, hgvalid⟩, hgbinary⟩
    rw [hg] at hgbinary
    refine ⟨d, ⟨computerBinary, i, ⟨computerGzip, j⟩⟩, rfl, ⟨hbinary, hi, ?_⟩, hvalid, rfl⟩
    exact bind_eq_some_iff.mpr
      ⟨g, hg, gzip_right.mpr ⟨mk_gzip.mpr ⟨hgbinary, hj⟩, hgvalid, rfl⟩⟩
  · rintro ⟨d, c, rfl, ⟨hbinary, hi, hgzip⟩, hvalid, hname⟩
    obtain ⟨g, hg, hgzip⟩ := bind_eq_some_iff.mp hgzip
    obtain ⟨hread, hgvalid, hgname⟩ := gzip_right.mp hgzip
    obtain ⟨hgbinary, hj⟩ := mk_gzip.mp hread
    refine ⟨⟨⟨⟨d, _, rfl, hi, hvalid⟩, hname ▸ hbinary⟩, g, _, hg, hj, hgvalid⟩, ?_⟩
    rw [hgname] at hgbinary
    rw [bind_some, hg]
    exact hgbinary

lemma artifactOf_eq {c : ComputerArtifact} (h : computer.right v = some c) :
    artifactOf v = some c := by
  obtain ⟨⟨hbinary, hi, hgzip⟩, -⟩ := computer_right.mp h
  obtain ⟨g, hg, hgzip⟩ := bind_eq_some_iff.mp hgzip
  exact mk_computer.mpr ⟨hbinary, hi, bind_eq_some_iff.mpr ⟨g, hg, (gzip_right.mp hgzip).1⟩⟩

lemma platform_right {r : ReleasePlatform} : platform.right v = some r ↔
    ∃ fields d, v = .obj fields ∧ fields.length = 1 ∧ fields.lookup "computer" = some d ∧
      computer.right d = some r.computer := by
  have hright : platform.right v =
      (onlyComputer v).bind fun d => ReleasePlatform.mk <$> computer.right d := rfl
  rw [hright]
  constructor
  · intro h
    obtain ⟨d, hd, h⟩ := bind_eq_some_iff.mp h
    obtain ⟨c, hc, rfl⟩ := map_eq_some_iff.mp h
    cases v with
    | obj fields =>
      rw [onlyComputer] at hd
      split_ifs at hd with hone
      exact ⟨fields, d, rfl, hone, hd, hc⟩
    | _ => exact nomatch hd
  · rintro ⟨fields, d, rfl, hone, hd, hc⟩
    rw [onlyComputer, if_pos hone, hd, bind_some, hc]
    rfl

lemma validPlatformEntry_iff : Updater.validPlatformEntry v = true ↔
    ∃ r, platform.right v = some r := by
  simp only [platform_right]
  cases v with
  | obj fields =>
    change (decide (fields.length = 1) && validArtifact (fields.lookup "computer")
      computerBinary) = true ↔ _
    rw [Bool.and_eq_true, decide_eq_true_eq, validArtifact_iff]
    constructor
    · rintro ⟨hone, d, c, hd, hc⟩
      exact ⟨⟨c⟩, fields, d, rfl, hone, hd, hc⟩
    · rintro ⟨r, _, d, heq, hone, hd, hc⟩
      obtain rfl := Document.obj.inj heq
      exact ⟨hone, d, _, hd, hc⟩
  | arr xs =>
    refine ⟨fun h => ?_, fun ⟨_, _, _, heq, _⟩ => nomatch heq⟩
    exact nomatch (Bool.and_eq_true_iff.mp h).2
  | _ => exact ⟨nofun, fun ⟨_, _, _, heq, _⟩ => nomatch heq⟩

lemma entry_right (f : String × Document) : (∃ x, entry.right f = some x) ↔
    Updater.validPlatformEntry f.2 = true := by
  have hright : entry.right f = (Prod.mk f.1) <$> platform.right f.2 := by
    change Prod.mk <$> some f.1 <*> platform.right f.2 = _
    cases platform.right f.2 <;> rfl
  rw [hright, validPlatformEntry_iff]
  cases platform.right f.2 <;> simp

variable {expectedVersion : String}

lemma manifest_right {p : Parts} : (manifestReaders expectedVersion).right v = some p ↔
      (v.get? "schema_version").bind (Document.natBelow (2 ^ 64)) = some 2 ∧
      (v.get? "version").bind Serde.string = some expectedVersion ∧
      (∃ c, (v.get? "commit").bind Serde.string = some c) ∧
      (∃ b, (v.get? "buildDate").bind Serde.string = some b) ∧
      (∃ fields, (v.get? "platforms").bind Updater.entries = some fields ∧
        fields.mapM entry.right = some p.platforms) ∧
      ∃ d, v.get? "photonWasm" = some d ∧ photonWasm.right d = some p.photonWasm := by
  have hplatforms (ps : List (String × ReleasePlatform)) :
      required "platforms" (ManifestReaders.entries.andThen entry.list).right v.get? =
          some ps ↔
        ∃ fields, (v.get? "platforms").bind Updater.entries = some fields ∧
          fields.mapM entry.right = some ps := by
    have hright : required "platforms" (ManifestReaders.entries.andThen entry.list).right
        v.get? = ((v.get? "platforms").bind Updater.entries).bind fun fields =>
          fields.mapM entry.right := by
      rw [bind_assoc]
      rfl
    rw [hright, bind_eq_some_iff]
  simp only [manifestReaders, parts, Twin.comap, Twin.seq, Twin.map, Twin.filter, Twin.required,
    Twin.leftChecks, seq_eq_some, map_eq_map, map_eq_some_iff, hplatforms, filter_eq_some_iff]
  constructor
  · rintro ⟨_, _, ⟨_, _, ⟨_, _, ⟨_, _, ⟨_, _, ⟨_, _, ⟨n, ⟨hschema, hn⟩, rfl⟩, ⟨hversion, hs⟩, rfl⟩,
      hcommit, rfl⟩, hdate, rfl⟩, hplat, rfl⟩, hphoton, rfl⟩, -, rfl⟩
    obtain rfl := of_decide_eq_true hn
    obtain rfl := of_decide_eq_true hs
    exact ⟨hschema, hversion, ⟨_, hcommit⟩, ⟨_, hdate⟩, hplat, bind_eq_some_iff.mp hphoton⟩
  · rintro ⟨hschema, hversion, ⟨c, hcommit⟩, ⟨b, hdate⟩, hplat, hphoton⟩
    exact ⟨_, (), ⟨_, _, ⟨_, _, ⟨_, _, ⟨_, _, ⟨_, _, ⟨2, ⟨hschema, rfl⟩, rfl⟩,
      ⟨hversion, decide_eq_true rfl⟩, rfl⟩, hcommit, rfl⟩, hdate, rfl⟩, hplat, rfl⟩,
      bind_eq_some_iff.mpr hphoton, rfl⟩, trivial, rfl⟩

lemma mapM_entry {fields : List (String × Document)} : (∃ ps, fields.mapM entry.right = some ps) ↔
      ∀ f ∈ fields, Updater.validPlatformEntry f.2 = true := by
  induction fields with
  | nil => exact ⟨fun _ => nofun, fun _ => ⟨[], rfl⟩⟩
  | cons f fields ih =>
    rw [List.forall_mem_cons, ← entry_right, ← ih, List.mapM_cons]
    constructor
    · rintro ⟨_, h⟩
      obtain ⟨x, hx, h⟩ := bind_eq_some_iff.mp h
      obtain ⟨ps, hps, -⟩ := bind_eq_some_iff.mp h
      exact ⟨⟨x, hx⟩, ps, hps⟩
    · rintro ⟨⟨x, hx⟩, ps, hps⟩
      exact ⟨x :: ps, by rw [hx, hps]; rfl⟩

lemma assert_right : (assertManifest v expectedVersion).isOk = true ↔
      ∃ p, (manifestReaders expectedVersion).right v = some p := by
  have htext (key : String) : ¬((v.get? key).bind string).isNone = true ↔
      ∃ s, (v.get? key).bind string = some s := by
    cases (v.get? key).bind string <;> simp
  have hschema : (v.get? "schema_version").bind Document.integer? = some 2 ↔
      (v.get? "schema_version").bind (Document.natBelow (2 ^ 64)) = some 2 := by
    simp [bind_eq_some_iff, Document.natBelow_eq_some]
  simp only [manifest_right, assertManifest, Except.isOk_guard, not_or, not_not, htext,
    Bool.not_eq_false, validPhotonWasmEntry_iff, hschema, isOk_checkEntries]
  constructor
  · rintro ⟨⟨hschema, ⟨version, hv⟩, hcommit, hdate, hplatforms, d, n, hd, hn⟩, hversion, hvalid⟩
    rw [hv, getD_some] at hversion
    subst hversion
    cases hfields : (v.get? "platforms").bind Updater.entries with
    | none =>
      rw [hfields] at hplatforms
      exact absurd rfl hplatforms
    | some fields =>
      rw [hfields, getD_some] at hvalid
      obtain ⟨ps, hps⟩ := mapM_entry.mpr hvalid
      exact ⟨⟨ps, n⟩, hschema, hv, hcommit, hdate, ⟨fields, rfl, hps⟩, d, hd, hn⟩
  · rintro ⟨p, hschema, hv, hcommit, hdate, ⟨fields, hfields, hps⟩, d, hd, hn⟩
    rw [hv, hfields]
    exact ⟨⟨hschema, ⟨_, rfl⟩, hcommit, hdate, nofun, d, _, hd, hn⟩, rfl, mapM_entry.mp ⟨_, hps⟩⟩

lemma lookup_entry {fields : List (String × Document)} {ps : List (String × ReleasePlatform)}
    (h : fields.mapM entry.right = some ps) (target : String) :
    ((fields.lookup target).bind fun p => (p.get? "computer").bind artifactOf) =
      (ps.lookup target).map ReleasePlatform.computer := by
  induction fields generalizing ps with
  | nil =>
    cases h
    rfl
  | cons f fields ih =>
    rw [List.mapM_cons] at h
    obtain ⟨⟨name, r⟩, hx, h⟩ := bind_eq_some_iff.mp h
    obtain ⟨rest, hrest, h⟩ := bind_eq_some_iff.mp h
    cases h
    obtain ⟨key, d⟩ := f
    obtain ⟨mk, r', hmk, hr, heq⟩ := seq_eq_some.mp hx
    cases hmk
    cases heq
    obtain ⟨members, c, hobj, -, hc, hread⟩ := platform_right.mp hr
    rw [List.lookup_cons, List.lookup_cons]
    by_cases hkey : (target == key) = true
    · simp only [hkey, map_some, bind_some]
      obtain rfl : d = .obj members := hobj
      rw [Document.get?_obj, hc]
      exact artifactOf_eq hread
    · simp only [hkey]
      exact ih hrest

lemma picks_right {p : Parts} (h : (manifestReaders expectedVersion).right v = some p) :
    (∀ target, platformArtifact v target = (p.platforms.lookup target).map
      ReleasePlatform.computer) ∧ photonWasmArtifact v = some p.photonWasm := by
  obtain ⟨-, -, -, -, ⟨fields, hfields, hps⟩, d, hd, hn⟩ := manifest_right.mp h
  constructor
  · intro target
    rw [platformArtifact, hfields]
    exact lookup_entry hps target
  · exact bind_eq_some_iff.mpr ⟨d, hd, (photonWasm_right.mp hn).1⟩

end Computer

/-! ### Side by side -/

lemma leftOnly_eq {v : Document} {expectedVersion : String} :
    (manifestReaders expectedVersion).leftOnly v = false := by
  have hany {α : Type} (o : Option α) : (o.any fun _ => false) = false := by cases o <;> rfl
  have hlist {α : Type} (xs : List α) : (xs.any fun _ => false) = false := by
    induction xs with
    | nil => rfl
    | cons _ _ ih => exact ih
  simp only [manifestReaders, parts, Twin.comap, Twin.seq, Twin.map, Twin.filter, Twin.required,
    Twin.andThen, Twin.bind, Twin.list, Twin.same, Twin.natural, Twin.string, Twin.leftChecks,
    entries, entry, platform, computer, gzip, photonWasm, Identity.members, hany, hlist,
    Bool.or_false]

lemma isOk_parse {v : Document} {expectedVersion : String} :
    (parseReleaseManifest v expectedVersion).isOk = true ↔
      ((manifestReaders expectedVersion).left v).isSome = true := by
  rw [isSome_iff_exists]
  simp only [parse_left]
  cases parseReleaseManifest v expectedVersion with
  | error e => exact ⟨nofun, fun ⟨_, _, h, _⟩ => nomatch h⟩
  | ok m => exact ⟨fun _ => ⟨⟨m.platforms, m.photonWasm⟩, m, rfl, rfl, rfl⟩, fun _ => rfl⟩

end ManifestReaders

/-- The two tools accept the same, and take the same files from what they accept. -/
structure ManifestsAgree (v : Document) (expectedVersion : String) : Prop where
  accepts : (parseReleaseManifest v expectedVersion).isOk = true ↔
    (Updater.assertManifest v expectedVersion).isOk = true
  executables : ∀ manifest, parseReleaseManifest v expectedVersion = .ok manifest →
    ∀ target, Updater.platformArtifact v target = (computerArtifact manifest target).toOption
  imageLibrary : ∀ manifest, parseReleaseManifest v expectedVersion = .ok manifest →
    Updater.photonWasmArtifact v = some manifest.photonWasm

open ManifestReaders in
/-- The two tools agree on a value exactly if it is no manifest even with forms that only the
Computer takes, or has no such form. -/
theorem manifest_readers_agree_iff (v : Document) (expectedVersion : String) :
    ManifestsAgree v expectedVersion ↔
      (((manifestReaders expectedVersion).lenient v).isSome = true →
        (manifestReaders expectedVersion).rightOnly v = false) := by
  have haccepts : ((parseReleaseManifest v expectedVersion).isOk = true ↔
      (Updater.assertManifest v expectedVersion).isOk = true) ↔
        (((manifestReaders expectedVersion).lenient v).isSome = true →
          (manifestReaders expectedVersion).rightOnly v = false) := by
    rw [isOk_parse, assert_right, ← isSome_iff_exists, Twin.agree_iff, leftOnly_eq]
    exact imp_congr_right fun _ => eq_comm
  refine ⟨fun h => haccepts.mp h.accepts, fun h => ?_⟩
  have hpicks (manifest : ReleaseManifest)
      (hparse : parseReleaseManifest v expectedVersion = .ok manifest) :
      (manifestReaders expectedVersion).right v =
        some ⟨manifest.platforms, manifest.photonWasm⟩ := by
    have hleft : (manifestReaders expectedVersion).left v =
        some ⟨manifest.platforms, manifest.photonWasm⟩ :=
      parse_left.mpr ⟨manifest, hparse, rfl, rfl⟩
    obtain ⟨p, hp⟩ := assert_right.mp ((haccepts.mpr h).mp (by rw [hparse]; rfl))
    rw [hp, Twin.left_eq_right _ hleft hp]
  refine ⟨haccepts.mpr h, fun manifest hparse target => ?_, fun manifest hparse => ?_⟩
  · rw [(picks_right (hpicks manifest hparse)).1 target, computerArtifact]
    cases manifest.platforms.lookup target <;> rfl
  · exact (picks_right (hpicks manifest hparse)).2

/-- A checksum of 64 digits. -/
def zeroChecksum : Document :=
  .str "0000000000000000000000000000000000000000000000000000000000000000"

/-- A manifest for one target, with the number of its schema. -/
def manifestOfSchema (schemaVersion : Document) : Document :=
  .obj [("schema_version", schemaVersion), ("version", .str "0.2.0"), ("commit", .str "abc"),
    ("buildDate", .str "2026-01-01"),
    ("platforms", .obj [("linux-x64", .obj [("computer", .obj [("binary", .str "coforge-computer"),
      ("size", .int 12), ("checksum", zeroChecksum),
      ("gzip", .obj [("binary", .str "coforge-computer.gz"), ("size", .int 7),
        ("checksum", zeroChecksum)])])])]),
    ("photonWasm", .obj [("file", .str "photon_rs_bg.wasm"), ("size", .int 3),
      ("checksum", zeroChecksum)])]

/-- The number may be written `2` for both tools, and `2.0` only for the Computer. -/
theorem manifest_readers_differ :
    (parseReleaseManifest (manifestOfSchema (.int 2)) "0.2.0").isOk = true ∧
      parseReleaseManifest (manifestOfSchema (.float 2)) "0.2.0" = .error schemaInvalid ∧
      (Updater.assertManifest (manifestOfSchema (.float 2)) "0.2.0").isOk = true := by
  decide

end Coforge.Installer
