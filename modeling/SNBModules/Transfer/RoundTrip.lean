import SNBModules.Transfer.AddressParsing
import SNBModules.Transfer.ExportImport
import SNBModules.Transfer.Group

/-!
# Round trips of what is sent

Source: `ip_format.hpp`, `transfer_metadata.cpp` and `group_metadata.cpp`, the
exports with the constructors that read them.

An address is read back from its text (`new_getIpPort`), a record from its full
export (`ofString_exportJson`) and a group, without its records, from its own
(`GroupMetadata.ofString_exportJson`).
-/

namespace SNBModules
namespace Transfer

open Lib

/-! ## Addresses -/

namespace IPFormat

/-- What the constructors make sure of. -/
structure WellFormed (a : IPFormat) : Prop where
  ip_ne : a.ip.toList ≠ []
  ip_clean : ∀ c ∈ a.ip.toList, c ≠ ':' ∧ c ≠ '\x00'
  port_nonneg : 0 ≤ a.port
  port_le : a.port ≤ 65535

theorem default_wellFormed : default.WellFormed :=
  ⟨by decide, by simp [default], by decide, by decide⟩

theorem setPort_wellFormed {a b : IPFormat} {port : ℤ} (ha : a.WellFormed)
    (h : a.setPort port = .ok b) : b.WellFormed := by
  obtain ⟨⟨hnonneg, hle⟩, rfl⟩ := setPort_eq_ok_iff.1 h
  exact ⟨ha.ip_ne, ha.ip_clean, hnonneg, hle⟩

theorem setIp_wellFormed {a b : IPFormat} {ip : String} (ha : a.WellFormed)
    (h : a.setIp ip = .ok b) : b.WellFormed := by
  have hhost (host : List Char) (hmem : host ∈ colonTokens (cString ip)) :
      (String.ofList host).toList ≠ [] ∧
        ∀ c ∈ (String.ofList host).toList, c ≠ ':' ∧ c ≠ '\x00' := by
    rw [String.toList_ofList]
    exact mem_colonTokens_cString hmem
  rcases setIp_eq_ok_iff.1 h with ⟨host, htokens, rfl⟩ | ⟨host, port, n, htokens, -, hrange, rfl⟩
  · obtain ⟨hne, hclean⟩ := hhost host (htokens ▸ List.mem_cons_self)
    exact ⟨hne, hclean, ha.port_nonneg, ha.port_le⟩
  · obtain ⟨hne, hclean⟩ := hhost host (htokens ▸ List.mem_cons_self)
    exact ⟨hne, hclean, hrange.1, hrange.2⟩

/-- **Every address that is made is well formed.** -/
theorem new_wellFormed {a : IPFormat} {ip : String} {port : ℤ} (h : new ip port = .ok a) :
    a.WellFormed := by
  obtain ⟨b, hb, h⟩ := bind_eq_ok.1 h
  exact setIp_wellFormed (setPort_wellFormed default_wellFormed hb) h

theorem getIpPort_toList {a : IPFormat} (h : a.WellFormed) :
    a.getIpPort.toList = a.ip.toList ++ ':' :: Nat.toDigits 10 a.port.toNat := by
  have hport : toString a.port = String.ofList (Nat.toDigits 10 a.port.toNat) := by
    obtain ⟨n, hn⟩ := Int.eq_ofNat_of_zero_le h.port_nonneg
    rw [hn]
    exact Nat.toString_eq_ofList_toDigits
  simp [getIpPort, hport]

/-- **An address is read back from its text.** -/
theorem new_getIpPort {a : IPFormat} (h : a.WellFormed) : new a.getIpPort 0 = .ok a := by
  have hdigits : ∀ c ∈ Nat.toDigits 10 a.port.toNat, c.isDigit = true :=
    fun c hc => Nat.isDigit_of_mem_toDigits (by decide) (by decide) hc
  have hclean : ∀ c ∈ a.getIpPort.toList, c ≠ '\x00' := by
    intro c hc
    rw [getIpPort_toList h] at hc
    rcases List.mem_append.1 hc with hc | hc
    · exact (h.ip_clean c hc).2
    · rcases List.mem_cons.1 hc with rfl | hc
      · decide
      · rintro rfl
        simpa using hdigits _ hc
  have hcolon : ':' ∉ Nat.toDigits 10 a.port.toNat := fun hc => by simpa using hdigits _ hc
  have htokens : colonTokens (cString a.getIpPort) =
      [a.ip.toList, Nat.toDigits 10 a.port.toNat] := by
    have htake : cString a.getIpPort = a.getIpPort.toList :=
      List.takeWhile_eq_self_iff.2 fun c hc => by simpa using hclean c hc
    rw [htake, getIpPort_toList h, colonTokens,
      List.splitOn_append_cons_self_of_not_mem fun hc => (h.ip_clean ':' hc).1 rfl,
      List.splitOn_eq_singleton hcolon]
    simp [h.ip_ne, Nat.toDigits_ne_nil]
  have hnumber : NumberText (Nat.toDigits 10 a.port.toNat) a.port := by
    have hn := numberText_digits Nat.toDigits_ne_nil hdigits
    rw [Nat.ofDigitChars_ten_toDigits, Int.toNat_of_nonneg h.port_nonneg] at hn
    exact hn
  have hzero : default.setPort 0 = .ok default := rfl
  rw [new, hzero]
  show default.setIp a.getIpPort = .ok a
  refine setIp_eq_ok_iff.2 (Or.inr ⟨a.ip.toList, _, a.port, htokens, hnumber,
    ⟨h.port_nonneg, h.port_le⟩, ?_⟩)
  rw [String.ofList_toList]

end IPFormat

/-! ## Paths -/

/-- A recorded path: from the root, and without `./`. -/
def RecordedPath (path : String) : Prop :=
  path.toList.head? = some '/' ∧ ¬ ['.', '/'] <:+: path.toList

instance (path : String) : Decidable (RecordedPath path) :=
  inferInstanceAs (Decidable (path.toList.head? = some '/' ∧ ¬ ['.', '/'] <:+: path.toList))

theorem removeDotSlash_of_not_infix {l : List Char} (h : ¬ ['.', '/'] <:+: l) :
    removeDotSlash l = l := by
  induction l with
  | nil => rfl
  | cons c l ih =>
      have hl : ¬ ['.', '/'] <:+: l := fun hinfix => h (List.infix_cons_iff.2 (Or.inr hinfix))
      have hhere : ∀ l', c = '.' → l = '/' :: l' → False := by
        rintro l' rfl rfl
        exact h (List.prefix_append ['.', '/'] l').isInfix
      rw [removeDotSlash.eq_2 c l hhere, ih hl]

/-- **A recorded path is kept as it is,** in whatever directory. -/
theorem normalised_of_recorded {path : String} (h : RecordedPath path) (cwd : String) :
    normalised cwd path = .ok path := by
  have hne : path ≠ "" := by
    rintro rfl
    exact absurd h.1 (by decide)
  rw [normalised, removeDotSlash_of_not_infix h.2, String.ofList_toList, absolute, if_neg hne,
    if_pos h.1]

/-- The path that is kept starts at the root. -/
theorem head?_normalised {cwd path path' : String} (hcwd : cwd.toList.head? = some '/')
    (h : normalised cwd path = .ok path') : path'.toList.head? = some '/' := by
  rw [normalised, absolute] at h
  split_ifs at h with hempty hroot hsep <;> cases h
  · exact hroot
  · simp [hcwd]
  · simp [hcwd]

/-! ## Records -/

namespace TransferMetadata

/-- **A full export is read back:** the record, up to its flags. -/
theorem ofString_exportJson {dump : Json → String} {parse : String → Option Json}
    {m : TransferMetadata} (hparse : parse (dump (m.exportJson true)) = some (m.exportJson true))
    (hm : m.Representable) (hpath : RecordedPath m.filePath) (hsrc : m.src.WellFormed)
    (hdest : m.dest.WellFormed) (hset : m.src ≠ .default) (hne : m.dest ≠ m.src)
    (cwd : String) (now : ℤ) :
    ∃ m', ofString cwd parse now (dump (m.exportJson true)) = .ok m' ∧
      m'.withoutFlags = m.withoutFlags := by
  have hj := exportJson_carries m true
  generalize m.exportJson true = j at *
  have hsize := runSteps_sizeSteps hj hm cwd now blank
  simp only [normalised_of_recorded hpath] at hsize
  generalize hr : storeAll now m (m.carried true) sizeFields { blank with filePath := m.filePath } =
    r at hsize
  have hdefault : r.dest = .default := by
    rw [← hr]
    simp [storeAll, sizeFields, store, carried]
    rfl
  have haddress : runSteps (addressSteps j) r =
      ({ r with src := m.src, dest := m.dest }, none) := by
    have hread {k : String} {a : IPFormat} (ha : a.WellFormed)
        (hk : j.member? k = some (.string a.getIpPort))
        (put : IPFormat → TransferMetadata → Except Exn TransferMetadata) (r : TransferMetadata) :
        j.readMember k getAddress put r = put a r := by
      rw [Json.readMember, hk]
      simp [getAddress, Json.getString, IPFormat.new_getIpPort ha, bind, Except.bind]
    rw [addressSteps, runSteps_cons_ok (t := { r with src := m.src }), runSteps_cons_ok]
    · rfl
    · rw [hread hdest hj.destination]
      exact setDest_eq_ok.2 ⟨hne, rfl⟩
    · rw [hread hsrc hj.source]
      exact setSrc_eq_ok.2 ⟨hdefault ▸ hset, rfl⟩
  have hsteps := runSteps_append_ok hsize (addressSteps j ++ statusSteps now j)
  rw [runSteps_append_ok haddress, runSteps_statusSteps hj hm] at hsteps
  rw [ofString, fromString, hparse]
  simp only [fromStringSteps, hsteps]
  refine ⟨_, rfl, ?_⟩
  rw [← hr]
  simp only [storeAll, timeFields, sizeFields, store, carried, List.foldl, Finset.mem_univ, if_true]
  -- the times that the status writes are written again after it
  obtain ⟨_, _, _, _, _, status, _, _, _, _, _, _, _, _, _⟩ := m
  cases status <;> rfl

end TransferMetadata

/-! ## Groups -/

namespace GroupMetadata

variable {ρ : Type}

theorem getStrings_map (path : ρ → String) (l : List ρ) :
    (Json.array (l.map fun ptr => .string (path ptr))).getStrings = .ok (l.map path) := by
  rw [Json.getStrings]
  induction l with
  | nil => rfl
  | cons ptr l ih =>
      rw [List.map_cons, List.mapM_cons, ih]
      rfl

theorem readFiles_of_recorded (cwd : String) {files : List String}
    (hfiles : ∀ path ∈ files, RecordedPath path) (g : GroupMetadata ρ) :
    g.readFiles cwd files = .ok { g with expectedFiles := g.expectedFiles ∪ files.toFinset } := by
  rw [readFiles]
  induction files generalizing g with
  | nil => simp [pure, Except.pure]
  | cons path files ih =>
      obtain ⟨hpath, hfiles⟩ := List.forall_mem_cons.1 hfiles
      have hadd : g.addExpectedFile cwd path =
          .ok { g with expectedFiles := insert path g.expectedFiles } := by
        rw [addExpectedFile, normalised_of_recorded hpath]
        rfl
      rw [List.foldlM_cons, hadd]
      refine (ih hfiles _).trans ?_
      simp [Finset.insert_union]

/-- The group that a message brings: no records yet, and their files expected. -/
def arriving (path : ρ → String) (g : GroupMetadata ρ) : GroupMetadata ρ :=
  { g with
    transfersMeta := []
    expectedFiles := (g.transfersMeta.map path).toFinset }

/-- **A group is read back without its records,** and expects their files. -/
theorem ofString_exportJson {dump : Json → String} {parse : String → Option Json}
    (hparse : ∀ j, parse (dump j) = some j) {g : GroupMetadata ρ} {path : ρ → String}
    {protocol : ProtocolType} (hprotocol : g.protocol = some protocol)
    (hip : g.sourceIp.WellFormed) (hpaths : ∀ ptr ∈ g.transfersMeta, RecordedPath (path ptr))
    (cwd : String) :
    ofString cwd parse (g.exportToString dump path) = .ok (g.arriving path) := by
  have hread {α : Type} {k : String} {v : Json} {get : Json → Except Exn α} {a : α}
      (hk : (g.exportJson dump path).member? k = some v) (hget : get v = .ok a)
      (put : α → GroupMetadata ρ → Except Exn (GroupMetadata ρ)) :
      (g.exportJson dump path).readMember k get put = put a := by
    funext g'
    rw [Json.readMember, hk]
    simp [hget, bind, Except.bind]
  have hstring (s : String) : (Json.string s).getString = .ok s := rfl
  have haddress : TransferMetadata.getAddress (.string g.sourceIp.getIpPort) = .ok g.sourceIp :=
    IPFormat.new_getIpPort hip
  have hfiles : (Json.array (g.transfersMeta.map fun ptr => .string (path ptr))).getStrings =
      .ok (g.transfersMeta.map path) := getStrings_map path g.transfersMeta
  have hid : (g.exportJson dump path).member? "transfer_id" = some (.string g.groupId) := by
    simp [exportJson]
  have hsource : (g.exportJson dump path).member? "source_id" = some (.string g.sourceId) := by
    simp [exportJson]
  have hsourceIp : (g.exportJson dump path).member? "source_ip" =
      some (.string g.sourceIp.getIpPort) := by
    simp [exportJson]
  have hprotocolName : (g.exportJson dump path).member? "protocol" =
      some (.string (protocolsToString protocol)) := by
    simp [exportJson, hprotocol]
  have hoptions : (g.exportJson dump path).member? "protocol_options" =
      some (.string (dump g.protocolOptions)) := by
    simp [exportJson]
  have hmember : (g.exportJson dump path).member? "files" =
      some (.array (g.transfersMeta.map fun ptr => .string (path ptr))) := by
    simp [exportJson]
  have hrecorded : ∀ file ∈ g.transfersMeta.map path, RecordedPath file := by
    simpa using hpaths
  rw [ofString, exportToString, hparse]
  simp only [hread hid (hstring _), hread hsource (hstring _), hread hsourceIp haddress,
    hread hprotocolName (hstring _), hread hoptions (hstring _), hread hmember hfiles]
  simp only [bind, Except.bind, readProtocol, stringToProtocols_protocolsToString,
    readProtocolOptions, hparse, readFiles_of_recorded cwd hrecorded]
  simp [arriving, blank, setGroupId, setSourceId, setProtocolOptions, hprotocol]

end GroupMetadata

end Transfer
end SNBModules
