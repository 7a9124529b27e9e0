import SNBModules.Transfer.Session

/-!
# Setting up a session

Source: `transfer_session.cpp`, the constructor; the constructors in
`transfer_interface_bittorrent.cpp`, `transfer_interface_SCP.hpp`,
`transfer_interface_RClone.hpp` and `transfer_interface_abstract.hpp`.

The constructor of a session makes its directory, then the transfer interface of
the protocol out of the protocol options, and last tells the bookkeepers.  An
option of the wrong type throws.  An option that is mandatory and missing is
reported as fatal, and the constructor of the session (`port`) or of the interface
(`user`) returns early: the one leaves a session without interface, the other an
interface without parameters.

What the file system and the libraries of the protocols do is an `Outside`.
-/

namespace SNBModules
namespace Transfer

open Lib

/-- What ends a call early: an exception, or behaviour that C++ leaves undefined,
here the use of a null pointer, of the first element of an empty vector, or of a
buffer past its end. -/
inductive Fault where
  | thrown (e : Exn)
  | undefined
  deriving DecidableEq, Repr

/-- A call of code that may throw. -/
def thrown {α : Type} (x : Except Exn α) : Except Fault α := x.mapError .thrown

@[simp] theorem thrown_ok {α : Type} (a : α) : thrown (.ok a : Except Exn α) = .ok a := rfl

@[simp] theorem thrown_error {α : Type} (e : Exn) :
    thrown (.error e : Except Exn α) = .error (.thrown e) := rfl

theorem thrown_eq_ok {α : Type} {x : Except Exn α} {a : α} : thrown x = .ok a ↔ x = .ok a := by
  cases x <;> simp

/-! ## Protocol options -/

/-- `get<bool>()`. -/
def Json.getBool : Json → Except Exn Bool
  | boolean b => .ok b
  | _ => .error .jsonTypeError

/-- An option, or its default where it is left out. -/
def readOption {α : Type} (options : Json) (k : String) (get : Json → Except Exn α) (default : α) :
    Except Exn α :=
  match options.member? k with
  | some v => get v
  | none => .ok default

/-- `TransferInterfaceRClone::parameters`. -/
structure RCloneParameters where
  protocol : String
  user : String
  port : ℤ
  bwlimit : String
  refreshRate : ℤ
  rootFolder : String
  simultTransfers : ℤ
  transferThreads : ℤ
  checkersThreads : ℤ
  chunkSize : String
  bufferSize : String
  useMmap : Bool
  checksum : Bool

/-- What the constructor of `TransferInterfaceRClone` reads; `user` only for one of
the protocols. -/
def rcloneParameters (cwd : String) (options : Json) : Except Exn RCloneParameters := do
  let protocol ← readOption options "protocol" Json.getString "http"
  let user ← if protocol = "sftp" then readOption options "user" Json.getString "anonymous"
    else .ok "anonymous"
  let bwlimit ← readOption options "rate_limit" Json.getString "off"
  let refreshRate ← readOption options "refresh_rate" Json.getInt32 10
  let port ← readOption options "port" Json.getInt32 8080
  let simultTransfers ← readOption options "simult_transfers" Json.getInt32 200
  let transferThreads ← readOption options "transfer_threads" Json.getInt32 4
  let checkersThreads ← readOption options "checkers_threads" Json.getInt32 1
  let chunkSize ← readOption options "chunk_size" Json.getString "10G"
  let bufferSize ← readOption options "buffer_size" Json.getString "100G"
  let useMmap ← readOption options "use_mmap" Json.getBool false
  let checksum ← readOption options "checksum" Json.getBool true
  let rootFolder ← readOption options "root_folder" (fun v => v.getString >>= absolute cwd) "/"
  .ok ⟨protocol, user, port, bwlimit, refreshRate, rootFolder, simultTransfers, transferThreads,
    checkersThreads, chunkSize, bufferSize, useMmap, checksum⟩

/-- The longest rate limit for which the request that is printed into
`new char[100]` fits. -/
def maxRateLimit : ℕ := 87

/-! ## The outside -/

/-- The file system and the libraries, as a call finds them: what they return or
throw, and the interface objects (`σ`) that they make. -/
structure Outside (σ : Type) where
  fileExists : String → Except Exn Bool
  fileSize : String → Except Exn ℕ
  createDirectories : String → Except Exn Unit
  /-- The interface of a bittorrent session, out of the session's address, the port
  and the rate limit. -/
  bittorrent : IPFormat → String → ℤ → Except Exn σ
  /-- `generate_torrents_files`: one file in the directory for each of the paths. -/
  generateTorrentsFiles : String → List String → Except Exn Unit
  /-- `make_magnet_uri` of a torrent file. -/
  magnetUri : String → Except Exn String
  /-- The interface of an SCP session, out of user, password flag and session type;
  without a user none of them is set. -/
  scp : Option (String × Bool × Bool) → σ
  rclone : RCloneParameters → String → Except Exn σ
  dummy : σ

/-! ## Paths of files -/

/-- `path::append`. -/
def appendPath (dir name : String) : String :=
  if name.toList.head? = some '/' then name
  else if dir = "" ∨ dir.toList.getLast? = some '/' then dir ++ name
  else dir ++ "/" ++ name

/-- `path::filename`: what stands after the last separator. -/
def fileName (path : String) : String :=
  String.ofList (path.toList.reverse.takeWhile (· ≠ '/')).reverse

/-- `path::extension`: the end of the file name from its last dot on, if that is not
its first character. -/
def extension (path : String) : String :=
  let name := (fileName path).toList
  let tail := (name.reverse.takeWhile (· ≠ '.')).reverse
  if name = ['.', '.'] ∨ name.length ≤ tail.length + 1 then "" else String.ofList ('.' :: tail)

example : extension "/data/run1.tmetadata" = ".tmetadata" := by decide +kernel

/-! ## The constructor -/

/-- The record without its magnet link and its flags. -/
def TransferMetadata.withoutLink (m : TransferMetadata) : TransferMetadata :=
  { m with magnetLink := "", modifiedFields := ∅ }

/-- The record as it is, or with another magnet link. -/
def TransferMetadata.Linked (m m' : TransferMetadata) : Prop :=
  m' = m ∨ ∃ link, m' = m.setMagnetLink link

/-- A session and its `m_transfer_interface`. -/
structure OpenSession (σ : Type) where
  session : TransferSession
  interface : Option σ

namespace TransferSession

variable {σ : Type}

/-- The magnet link of a record of an uploader. -/
def withMagnetLink (o : Outside σ) (s : TransferSession) (port : String) (m : TransferMetadata) :
    Except Exn TransferMetadata := do
  let uri ← o.magnetUri (appendPath s.workDir (fileName m.filePath ++ ".torrent"))
  .ok (m.setMagnetLink (uri ++ "&x.pe=" ++ s.ip.ip ++ ":" ++ port))

/-- The torrent files and magnet links of an uploader. -/
def withTorrents (o : Outside σ) (s : TransferSession) (port : String) :
    Except Exn TransferSession :=
  match s.type with
  | .uploader => do
      o.generateTorrentsFiles s.workDir (s.files.map TransferMetadata.filePath)
      let files ← s.files.mapM (s.withMagnetLink o port)
      .ok (s.withFiles files)
  | .downloader => .ok s

/-- The `switch` over the protocol.  The flag says whether the constructor goes on
to the end. -/
def makeInterface (cwd : String) (o : Outside σ) (s : TransferSession) :
    Except Fault (OpenSession σ × Bool) :=
  let options := s.transferOptions.protocolOptions
  match s.transferOptions.protocol with
  | some .bittorrent =>
      match options.member? "port" with
      | none => .ok (⟨s, none⟩, false)
      | some port => do
          let port ← thrown port.getString
          let rateLimit ← thrown (readOption options "rate_limit" Json.getInt32 (-1))
          let h ← thrown (o.bittorrent s.ip port rateLimit)
          let s ← thrown (s.withTorrents o port)
          .ok (⟨s, some h⟩, true)
  | some .scp =>
      match options.member? "user" with
      | none => .ok (⟨s, some (o.scp none)⟩, true)
      | some user => do
          let user ← thrown user.getString
          let usePassword ← thrown (readOption options "use_password" Json.getBool false)
          .ok (⟨s, some (o.scp (some (user, usePassword, s.type = .uploader)))⟩, true)
  | some .rclone => do
      let p ← thrown (rcloneParameters cwd options)
      if maxRateLimit < ((cString p.bwlimit).map Char.utf8Size).sum then .error .undefined
      else do
        let h ← thrown (o.rclone p s.workDir)
        .ok (⟨s, some h⟩, true)
  | some .dummy => .ok (⟨s, some o.dummy⟩, true)
  | none => .ok (⟨s, none⟩, true)

/-- The constructor of `TransferSession`, from its members. -/
def construct (cwd : String) (o : Outside σ) (env : Env) (dump : Json → String)
    (s : TransferSession) (w : World) : Except Fault (OpenSession σ × World) := do
  thrown (o.createDirectories s.workDir)
  let p ← s.makeInterface cwd o
  if p.2 then
    let q := p.1.session.updateMetadatasToBookkeeper env dump w
    .ok (⟨q.2.1, p.1.interface⟩, q.1)
  else .ok (p.1, w)

/-- The messages of the constructor: none when it has returned early. -/
def reported (env : Env) (dump : Json → String) (q : OpenSession σ × Bool) (w : World) : World :=
  if q.2 then (q.1.session.updateMetadatasToBookkeeper env dump w).1 else w

/-- The constructor up to its messages. -/
def setup (cwd : String) (o : Outside σ) (s : TransferSession) :
    Except Fault (OpenSession σ × Bool) := do
  thrown (o.createDirectories s.workDir)
  s.makeInterface cwd o

/-! ## What the constructor leaves -/

variable {cwd : String} {o : Outside σ} {s : TransferSession}

/-- A magnet link leaves the rest of the records. -/
theorem map_withoutLink_of_linked {files files' : List TransferMetadata}
    (h : List.Forall₂ TransferMetadata.Linked files files') :
    files'.map TransferMetadata.withoutLink = files.map TransferMetadata.withoutLink := by
  induction h with
  | nil => rfl
  | cons hm _ ih =>
      rw [List.map_cons, List.map_cons, ih]
      rcases hm with rfl | ⟨link, rfl⟩ <;> rfl

/-- Nor does it take a flag away. -/
theorem flagged_of_linked {files files' : List TransferMetadata}
    (h : List.Forall₂ TransferMetadata.Linked files files')
    (hfiles : ∀ m ∈ files, m.modifiedFields = Finset.univ) :
    ∀ m ∈ files', m.modifiedFields = Finset.univ := by
  induction h with
  | nil => exact hfiles
  | cons hm _ ih =>
      obtain ⟨hhead, htail⟩ := List.forall_mem_cons.1 hfiles
      refine List.forall_mem_cons.2 ⟨?_, ih htail⟩
      rcases hm with rfl | ⟨link, rfl⟩
      · exact hhead
      · exact Finset.eq_univ_iff_forall.2 fun x =>
          Finset.mem_insert_of_mem (Finset.eq_univ_iff_forall.1 hhead x)

theorem withFiles_self (s : TransferSession) : s.withFiles s.files = s := rfl

theorem withMagnetLink_linked {port : String} {m m' : TransferMetadata}
    (h : s.withMagnetLink o port m = .ok m') : m.Linked m' := by
  obtain ⟨uri, -, h⟩ := bind_eq_ok.1 h
  cases h
  exact Or.inr ⟨_, rfl⟩

theorem linked_refl (files : List TransferMetadata) :
    List.Forall₂ TransferMetadata.Linked files files :=
  List.forall₂_same.2 fun _ _ => Or.inl rfl

theorem withTorrents_eq_ok {port : String} {t : TransferSession}
    (h : s.withTorrents o port = .ok t) :
    ∃ files, t = s.withFiles files ∧ List.Forall₂ TransferMetadata.Linked s.files files := by
  rw [withTorrents] at h
  cases htype : s.type with
  | downloader =>
      simp only [htype] at h
      cases h
      exact ⟨s.files, (withFiles_self s).symm, linked_refl s.files⟩
  | uploader =>
      simp only [htype, bind_eq_ok] at h
      obtain ⟨-, -, files, hfiles, h⟩ := h
      cases h
      exact ⟨files, rfl, (forall₂_mapM hfiles).imp fun _ _ => withMagnetLink_linked⟩

/-- **The interface is made for the session as it is,** up to the magnet links.  There
is none when there is no protocol, and when the port of a bittorrent session is
missing, where the constructor does not go on. -/
theorem makeInterface_eq_ok {t : OpenSession σ} {more : Bool}
    (h : s.makeInterface cwd o = .ok (t, more)) :
    ∃ files, t.session = s.withFiles files ∧
      List.Forall₂ TransferMetadata.Linked s.files files ∧
      (t.interface = none ↔ s.transferOptions.protocol = none ∨
        s.transferOptions.protocol = some .bittorrent ∧
          s.transferOptions.protocolOptions.member? "port" = none) ∧
      (more = false → s.transferOptions.protocol = some .bittorrent ∧
        s.transferOptions.protocolOptions.member? "port" = none) := by
  rw [makeInterface] at h
  cases hprotocol : s.transferOptions.protocol with
  | none =>
      simp only [hprotocol] at h
      cases h
      exact ⟨s.files, (withFiles_self s).symm, linked_refl s.files, by simp, by simp⟩
  | some protocol =>
      simp only [hprotocol] at h
      cases protocol with
      | bittorrent =>
          cases hport : s.transferOptions.protocolOptions.member? "port" with
          | none =>
              simp only [hport] at h
              cases h
              exact ⟨s.files, (withFiles_self s).symm, linked_refl s.files, by simp,
                fun _ => ⟨rfl, rfl⟩⟩
          | some port =>
              simp only [hport, bind_eq_ok] at h
              obtain ⟨_, -, _, -, _, -, s', hs', h⟩ := h
              cases h
              obtain ⟨files, hfiles, hlinks⟩ := withTorrents_eq_ok (thrown_eq_ok.1 hs')
              exact ⟨files, hfiles, hlinks, by simp, by simp⟩
      | rclone =>
          simp only [bind_eq_ok] at h
          obtain ⟨parameters, -, h⟩ := h
          split_ifs at h
          obtain ⟨_, -, h⟩ := bind_eq_ok.1 h
          cases h
          exact ⟨s.files, (withFiles_self s).symm, linked_refl s.files, by simp, by simp⟩
      | scp =>
          cases huser : s.transferOptions.protocolOptions.member? "user" with
          | none =>
              simp only [huser] at h
              cases h
              exact ⟨s.files, (withFiles_self s).symm, linked_refl s.files, by simp, by simp⟩
          | some user =>
              simp only [huser, bind_eq_ok] at h
              obtain ⟨_, -, _, -, h⟩ := h
              cases h
              exact ⟨s.files, (withFiles_self s).symm, linked_refl s.files, by simp, by simp⟩
      | dummy =>
          cases h
          exact ⟨s.files, (withFiles_self s).symm, linked_refl s.files, by simp, by simp⟩

theorem updateMetadatasToBookkeeper_session (s : TransferSession) (env : Env)
    (dump : Json → String) (w : World) :
    ∃ files, (s.updateMetadatasToBookkeeper env dump w).2.1 = s.withFiles files :=
  ⟨_, rfl⟩

/-- Whether the constructor gets through. -/
def constructible (cwd : String) (o : Outside σ) (s : TransferSession) : Bool :=
  (o.createDirectories s.workDir).isOk && (s.makeInterface cwd o).isOk

/-- **What the constructor leaves** is the session that it was called for, up to the
records. -/
theorem construct_eq_ok {env : Env} {dump : Json → String} {w w' : World} {t : OpenSession σ}
    (h : s.construct cwd o env dump w = .ok (t, w')) : ∃ files, t.session = s.withFiles files := by
  simp only [construct, bind_eq_ok] at h
  obtain ⟨-, -, ⟨t', more⟩, hmake, h⟩ := h
  obtain ⟨files, hfiles, -⟩ := makeInterface_eq_ok hmake
  cases more with
  | false =>
      cases h
      exact ⟨files, hfiles⟩
  | true =>
      cases h
      obtain ⟨files', hfiles'⟩ := t'.session.updateMetadatasToBookkeeper_session env dump w
      exact ⟨files', by rw [hfiles', hfiles]; rfl⟩

theorem construct_isOk (cwd : String) (o : Outside σ) (env : Env) (dump : Json → String)
    (s : TransferSession) (w : World) :
    (s.construct cwd o env dump w).isOk = s.constructible cwd o := by
  rw [construct, constructible]
  cases o.createDirectories s.workDir with
  | error e => rfl
  | ok _ =>
      cases hmake : s.makeInterface cwd o with
      | error f => simp [bind, Except.bind, Except.isOk, Except.toBool]
      | ok q =>
          obtain ⟨t, more⟩ := q
          cases more <;> simp [bind, Except.bind, Except.isOk, Except.toBool]

/-- The constructor sends its messages when all else is done. -/
theorem construct_eq_setup (cwd : String) (o : Outside σ) (env : Env) (dump : Json → String)
    (s : TransferSession) (w : World) :
    s.construct cwd o env dump w = s.setup cwd o >>= fun q =>
      if q.2 then
        .ok (⟨(q.1.session.updateMetadatasToBookkeeper env dump w).2.1, q.1.interface⟩,
          (q.1.session.updateMetadatasToBookkeeper env dump w).1)
      else .ok (q.1, w) := by
  rw [construct, setup]
  cases o.createDirectories s.workDir <;> rfl

end TransferSession

end Transfer
end SNBModules
