import SNBModules.Lib.JsonGrammar
import SNBModules.Transfer.JsonText
import SNBModules.Transfer.RClone
import SNBModules.Transfer.RecordedPath

/-!
# The texts of the RClone requests

Source: `transfer_interface_RClone.hpp`, the constructor, `download_file` and
`resume_file`; `docs/Transfer.md`, the parameters.

A request is printed with `sprintf` into a buffer of 1000 or 100 characters, out of a
template with the arguments as they are.  A quote or a backslash in an argument is not
escaped; `transfer_threads` stands where the template has `Checkers`, and
`checkers_threads` where it has `MultiThreadStreams`; and `resume_file` puts the rate
limit into its text without quotes, so that neither `off` nor `1GiB` is JSON there.

For arguments without such characters `requests_right_iff` says exactly when the requests
say what was asked for.
-/

namespace SNBModules
namespace Transfer

open Lib Lib.JsonGrammar

namespace RClone

/-! ## The texts -/

/-- The length of a text in UTF-8. -/
def bytes (text : List Char) : ℕ := (text.map Char.utf8Size).sum

/-- `sprintf` into a buffer, with its zero byte; past the end it is undefined. -/
def sprintf (size : ℕ) (text : List Char) : Option (List Char) :=
  if bytes text < size then some text else none

/-- A `%s` between quotes. -/
def quotedArg (s : String) : List Char := quoted (cString s)

/-- The `%s` of a flag. -/
def flagText : Bool → List Char
  | true => ['t', 'r', 'u', 'e']
  | false => ['f', 'a', 'l', 's', 'e']

/-- What stands in `_config`; only the request over HTTP has `StreamingUploadCutoff`. -/
def configMembers (p : RCloneParameters) (streaming : List (String × List Char)) :
    List (String × List Char) :=
  [("BindAddr", quoted []),
    ("MultiThreadSet", flagText true),
    ("Transfers", JsonText.printInt p.simultTransfers),
    ("Checkers", JsonText.printInt p.transferThreads),
    ("MultiThreadStreams", JsonText.printInt p.checkersThreads),
    ("MultiThreadCutoff", quotedArg p.chunkSize)] ++ streaming ++
  [("UseMmap", flagText p.useMmap),
    ("CheckSum", flagText p.checksum),
    ("BufferSize", quotedArg p.bufferSize),
    ("ErrorOnNoTransfer", flagText true)]

example :
    objectText (configMembers
      ⟨"http", "", 8080, "off", 10, "/", 200, 4, 1, "10G", "100G", false, true⟩ []) =
    "\x7b\"BindAddr\": \"\",\"MultiThreadSet\": true,".toList ++
      "\"Transfers\": 200,\"Checkers\": 4,".toList ++
      "\"MultiThreadStreams\": 1,\"MultiThreadCutoff\": \"10G\",".toList ++
      "\"UseMmap\": false,\"CheckSum\": true,".toList ++
      "\"BufferSize\": \"100G\",\"ErrorOnNoTransfer\": true\x7d".toList := by
  decide +kernel

/-- What the two templates share. -/
def copyMembers (srcFs : List (String × List Char)) (srcRemote : List Char) (dstRemote : String)
    (config : List (String × List Char)) : List (String × List Char) :=
  [("srcFs", objectText srcFs),
    ("srcRemote", quoted srcRemote),
    ("dstFs", quoted ['/']),
    ("dstRemote", quotedArg dstRemote),
    ("_config", objectText config),
    ("_async", flagText true)]

/-- The source of a request over HTTP. -/
def httpSource (p : RCloneParameters) (ip : String) : List (String × List Char) :=
  [("type", quoted "http".toList),
    ("url", quoted ("http://".toList ++ (cString ip ++ ':' :: JsonText.printInt p.port)))]

/-- The source of a request over SFTP. -/
def sftpSource (p : RCloneParameters) (ip : String) : List (String × List Char) :=
  [("type", quoted "sftp".toList),
    ("host", quotedArg ip),
    ("user", quotedArg p.user),
    ("port", quoted (JsonText.printInt p.port)),
    ("key_file", quoted "/home/ljoly/.ssh/id_rsa".toList),
    ("disable_concurrent_writes", quoted "false".toList),
    ("concurrency", quoted (JsonText.printInt p.simultTransfers))]

/-- `dest.append(f_meta.get_file_name())`. -/
def target (m : TransferMetadata) (dest : String) : String := appendPath dest (fileName m.filePath)

/-- The request of `download_file`; for other protocols the buffer is not written. -/
def copyText (p : RCloneParameters) (relative : String → String → String) (m : TransferMetadata)
    (dest : String) : Option (List Char) :=
  if p.protocol = "http" then
    some (objectText (copyMembers (httpSource p m.src.ip)
      (cString (relative m.filePath p.rootFolder)) (target m dest)
      (configMembers p [("StreamingUploadCutoff", quotedArg p.chunkSize)])))
  else if p.protocol = "sftp" then
    some (objectText (copyMembers (sftpSource p m.src.ip)
      ('.' :: '.' :: '/' :: '.' :: '.' :: cString m.filePath) (target m dest)
      (configMembers p [])))
  else none

/-- The rate limit in the constructor. -/
def rateText (p : RCloneParameters) : List Char := objectText [("rate", quotedArg p.bwlimit)]

/-- The rate limit in `resume_file`. -/
def resumeText (p : RCloneParameters) : List Char :=
  objectText [("bytesPerSecond", cString p.bwlimit)]

/-! ## What they are to say -/

/-- From a login directory two levels below the root a path leads to the file. -/
def LeadsTo (remote path : String) : Prop :=
  ∀ a b, (true, walk '.' [b, a] (components remote)) = lexicallyNormal path

/-- The source of a copy: relative to the root folder, or from the login directory. -/
def IsSource (p : RCloneParameters) (relative : String → String → String) (m : TransferMetadata)
    (remote : String) : Prop :=
  if p.protocol = "http" then remote = relative m.filePath p.rootFolder
  else LeadsTo remote m.filePath

/-- The text is that of the copy: source, target and parameters as documented. -/
def AsksForCopy (p : RCloneParameters) (relative : String → String → String)
    (m : TransferMetadata) (dest : String) (text : List Char) : Prop :=
  ∃ v config, read text = some v ∧ v.member? "_config" = some config ∧
    (∃ remote, (v.member? "srcRemote").bind Value.string? = some remote ∧
      IsSource p relative m remote) ∧
    (v.member? "dstRemote").bind Value.string? = some (target m dest) ∧
    (config.member? "Transfers").bind Value.integer? = some p.simultTransfers ∧
    (config.member? "MultiThreadStreams").bind Value.integer? = some p.transferThreads ∧
    (config.member? "Checkers").bind Value.integer? = some p.checkersThreads

/-- A text that fits its buffer and is well formed. -/
def WellFormed (size : ℕ) (text : List Char) : Prop :=
  ∃ t, sprintf size text = some t ∧ (read t).isSome = true

/-- The requests of an interface for a file: the copy, if it is asked for, and the rate
limits. -/
structure RequestsRight (p : RCloneParameters) (relative : String → String → String)
    (m : TransferMetadata) (dest : String) : Prop where
  copy : ¬ Outside ⟨p.protocol, p.rootFolder⟩ relative m →
    ∃ text, (copyText p relative m dest).bind (sprintf 1000) = some text ∧
      AsksForCopy p relative m dest text
  rate : WellFormed 100 (rateText p)
  resume : WellFormed 100 (resumeText p)

/-- The strings that are printed into the copy request. -/
def stringArgs (p : RCloneParameters) (relative : String → String → String)
    (m : TransferMetadata) (dest : String) : List String :=
  [m.src.ip, target m dest, p.chunkSize, p.bufferSize] ++
    if p.protocol = "http" then [relative m.filePath p.rootFolder] else [p.user, m.filePath]

/-- The length of the copy request. -/
def copySize (p : RCloneParameters) (relative : String → String → String)
    (m : TransferMetadata) (dest : String) : ℕ :=
  ((stringArgs p relative m dest).map fun s => bytes s.toList).sum +
    bytes (JsonText.printInt p.port) + bytes (JsonText.printInt p.simultTransfers) +
    bytes (JsonText.printInt p.transferThreads) + bytes (JsonText.printInt p.checkersThreads) +
    bytes (flagText p.useMmap) + bytes (flagText p.checksum) +
    if p.protocol = "http" then bytes p.chunkSize.toList + 326
    else bytes (JsonText.printInt p.simultTransfers) + 411

/-! ## Lengths -/

theorem bytes_nil : bytes [] = 0 := rfl

theorem bytes_cons (c : Char) (l : List Char) : bytes (c :: l) = c.utf8Size + bytes l := rfl

theorem bytes_append (l l' : List Char) : bytes (l ++ l') = bytes l + bytes l' := by
  simp [bytes]

theorem bytes_quoted (l : List Char) : bytes (quoted l) = bytes l + 2 := by
  have hquote : Char.utf8Size '\x22' = 1 := rfl
  rw [quoted, bytes_cons, bytes_append, bytes_cons, bytes_nil, hquote]
  omega

/-- Each member has its quotes, a colon, a blank, and a comma or the brace. -/
theorem bytes_objectText {members : List (String × List Char)} (hne : members ≠ []) :
    bytes (objectText members) =
      (members.map fun m => bytes m.1.toList + bytes m.2 + 5).sum + 1 := by
  have hmember : ∀ k text, bytes (memberText k text) = bytes k.toList + bytes text + 4 := by
    intro k text
    have hcolon : Char.utf8Size ':' = 1 := rfl
    have hblank : Char.utf8Size ' ' = 1 := rfl
    rw [memberText, bytes_append, bytes_quoted, bytes_cons, bytes_cons, hcolon, hblank]
    omega
  have hmembers : bytes (membersText members) =
      (members.map fun m => bytes m.1.toList + bytes m.2 + 5).sum := by
    induction members with
    | nil => exact absurd rfl hne
    | cons m members ih =>
        obtain ⟨k, text⟩ := m
        cases members with
        | nil =>
            have hbrace : Char.utf8Size '\x7d' = 1 := rfl
            rw [membersText, bytes_append, hmember, bytes_cons, bytes_nil, hbrace]
            simp
        | cons m' members =>
            have hcomma : Char.utf8Size ',' = 1 := rfl
            rw [membersText, bytes_append, hmember, bytes_cons, hcomma, ih (by simp)]
            simp only [List.map_cons, List.sum_cons]
            omega
  have hbrace : Char.utf8Size '\x7b' = 1 := rfl
  rw [objectText, bytes_cons, hmembers, hbrace]
  omega

theorem bytes_true : bytes (flagText true) = 4 := rfl

/-- A plain string is printed to its end. -/
theorem cString_of_plain {s : String} (h : JsonGrammar.Plain s.toList) : cString s = s.toList := by
  refine List.takeWhile_eq_self_iff.2 fun c hc => ?_
  have hcode := (h c hc).2.2
  rw [decide_eq_true_iff]
  rintro rfl
  exact absurd hcode (by decide)

theorem bytes_quotedArg {s : String} (h : JsonGrammar.Plain s.toList) :
    bytes (quotedArg s) = bytes s.toList + 2 := by
  rw [quotedArg, cString_of_plain h, bytes_quoted]

theorem bytes_configMembers {p : RCloneParameters}
    (hchunk : JsonGrammar.Plain p.chunkSize.toList)
    (hbuffer : JsonGrammar.Plain p.bufferSize.toList) (streaming : List (String × List Char)) :
    bytes (objectText (configMembers p streaming)) =
      (streaming.map fun m => bytes m.1.toList + bytes m.2 + 5).sum +
        bytes (JsonText.printInt p.simultTransfers) + bytes (JsonText.printInt p.transferThreads) +
        bytes (JsonText.printInt p.checkersThreads) + bytes p.chunkSize.toList +
        bytes p.bufferSize.toList + bytes (flagText p.useMmap) + bytes (flagText p.checksum) +
        181 := by
  rw [bytes_objectText (by simp [configMembers])]
  simp only [configMembers, bytes_quotedArg hchunk, bytes_quotedArg hbuffer, bytes_quoted,
    bytes_true, List.map_append, List.sum_append, List.map_cons, List.map_nil, List.sum_cons,
    List.sum_nil]
  simp [bytes_cons, bytes_nil, Char.utf8Size]
  omega

theorem bytes_copyMembers {dstRemote : String} (htarget : JsonGrammar.Plain dstRemote.toList)
    (srcFs : List (String × List Char)) (srcRemote : List Char)
    (config : List (String × List Char)) :
    bytes (objectText (copyMembers srcFs srcRemote dstRemote config)) =
      bytes (objectText srcFs) + bytes srcRemote + bytes dstRemote.toList +
        bytes (objectText config) + 83 := by
  rw [bytes_objectText (by simp [copyMembers])]
  simp only [copyMembers, bytes_quotedArg htarget, bytes_quoted, bytes_true, List.map_cons,
    List.map_nil, List.sum_cons, List.sum_nil]
  simp [bytes_cons, bytes_nil, Char.utf8Size]
  omega

theorem bytes_httpSource {p : RCloneParameters} {ip : String}
    (hip : JsonGrammar.Plain ip.toList) :
    bytes (objectText (httpSource p ip)) =
      bytes ip.toList + bytes (JsonText.printInt p.port) + 34 := by
  rw [bytes_objectText (by simp [httpSource])]
  simp only [httpSource, cString_of_plain hip, bytes_quoted, bytes_append, List.map_cons,
    List.map_nil, List.sum_cons, List.sum_nil]
  simp [bytes_cons, bytes_nil, Char.utf8Size]
  omega

theorem bytes_sftpSource {p : RCloneParameters} {ip : String}
    (hip : JsonGrammar.Plain ip.toList) (huser : JsonGrammar.Plain p.user.toList) :
    bytes (objectText (sftpSource p ip)) =
      bytes ip.toList + bytes p.user.toList + bytes (JsonText.printInt p.port) +
        bytes (JsonText.printInt p.simultTransfers) + 142 := by
  rw [bytes_objectText (by simp [sftpSource])]
  simp only [sftpSource, bytes_quotedArg hip, bytes_quotedArg huser, bytes_quoted, List.map_cons,
    List.map_nil, List.sum_cons, List.sum_nil]
  simp [bytes_cons, bytes_nil, Char.utf8Size]
  omega

/-! ## The texts that are read -/

theorem denotes_quotedArg {s : String} (h : JsonGrammar.Plain s.toList) :
    Denotes (quotedArg s) (.string s) := by
  have hquoted := denotes_quoted h
  rwa [String.ofList_toList, ← cString_of_plain h] at hquoted

theorem denotes_flagText (b : Bool) : Denotes (flagText b) (.boolean b) := by
  cases b
  · exact denotes_word (by decide +kernel) (by decide) rfl
  · exact denotes_word (by decide +kernel) (by decide) rfl

theorem denotes_printInt (n : ℤ) :
    Denotes (JsonText.printInt n) (.number (JsonText.printInt n)) := by
  cases n with
  | ofNat n => exact denotes_toDigits n
  | negSucc n => exact denotes_minus_toDigits (n + 1)

theorem integer?_printInt (n : ℤ) : (Value.number (JsonText.printInt n)).integer? = some n := by
  cases n with
  | ofNat n => exact integer?_toDigits n
  | negSucc n => exact integer?_minus_toDigits (n + 1)

theorem plain_printInt (n : ℤ) : JsonGrammar.Plain (JsonText.printInt n) := by
  have hdigits : ∀ n, JsonGrammar.Plain (Nat.toDigits 10 n) := by
    intro n c hc
    have hdigit := isDigit_of_mem hc
    refine ⟨?_, ?_, ?_⟩
    · rintro rfl
      cases hdigit
    · rintro rfl
      cases hdigit
    · simp only [Char.isDigit, Bool.and_eq_true, decide_eq_true_eq] at hdigit
      have hzero : ('0' : Char).toNat ≤ c.toNat := hdigit.1
      exact le_trans (by decide) hzero
  cases n with
  | ofNat n => exact hdigits n
  | negSucc n =>
      intro c hc
      rcases List.mem_cons.1 hc with rfl | hc
      · decide
      · exact hdigits _ c hc

/-- What `_config` is read as. -/
def configValues (p : RCloneParameters) (streaming : List (String × Value)) :
    List (String × Value) :=
  [("BindAddr", .string ""),
    ("MultiThreadSet", .boolean true),
    ("Transfers", .number (JsonText.printInt p.simultTransfers)),
    ("Checkers", .number (JsonText.printInt p.transferThreads)),
    ("MultiThreadStreams", .number (JsonText.printInt p.checkersThreads)),
    ("MultiThreadCutoff", .string p.chunkSize)] ++ streaming ++
  [("UseMmap", .boolean p.useMmap),
    ("CheckSum", .boolean p.checksum),
    ("BufferSize", .string p.bufferSize),
    ("ErrorOnNoTransfer", .boolean true)]

/-- What the two requests are read as. -/
def copyValues (srcFs : Value) (srcRemote dstRemote : String) (config : List (String × Value)) :
    List (String × Value) :=
  [("srcFs", srcFs),
    ("srcRemote", .string srcRemote),
    ("dstFs", .string "/"),
    ("dstRemote", .string dstRemote),
    ("_config", .object config),
    ("_async", .boolean true)]

/-- A member of an object that is read by itself. -/
def ReadsAs (m : String × List Char) (v : String × Value) : Prop :=
  m.1 = v.1 ∧ JsonGrammar.Plain m.1.toList ∧ Denotes m.2 v.2

theorem readsAs {k : String} {text : List Char} {v : Value} (hk : JsonGrammar.Plain k.toList)
    (h : Denotes text v) : ReadsAs (k, text) (k, v) :=
  ⟨rfl, hk, h⟩

theorem configMembers_readsAs {p : RCloneParameters} (hchunk : JsonGrammar.Plain p.chunkSize.toList)
    (hbuffer : JsonGrammar.Plain p.bufferSize.toList) {streaming : List (String × List Char)}
    {vs : List (String × Value)} (h : List.Forall₂ ReadsAs streaming vs) :
    List.Forall₂ ReadsAs (configMembers p streaming) (configValues p vs) := by
  have hempty : Denotes (quoted []) (.string "") := denotes_quoted (by decide +kernel)
  have hfirst : List.Forall₂ ReadsAs ((configMembers p []).take 6) ((configValues p []).take 6) :=
    .cons (readsAs (by decide +kernel) hempty) <|
    .cons (readsAs (by decide +kernel) (denotes_flagText true)) <|
    .cons (readsAs (by decide +kernel) (denotes_printInt _)) <|
    .cons (readsAs (by decide +kernel) (denotes_printInt _)) <|
    .cons (readsAs (by decide +kernel) (denotes_printInt _)) <|
    .cons (readsAs (by decide +kernel) (denotes_quotedArg hchunk)) .nil
  have hlast : List.Forall₂ ReadsAs ((configMembers p []).drop 6) ((configValues p []).drop 6) :=
    .cons (readsAs (by decide +kernel) (denotes_flagText _)) <|
    .cons (readsAs (by decide +kernel) (denotes_flagText _)) <|
    .cons (readsAs (by decide +kernel) (denotes_quotedArg hbuffer)) <|
    .cons (readsAs (by decide +kernel) (denotes_flagText true)) .nil
  exact List.rel_append (List.rel_append hfirst h) hlast

theorem copyMembers_readsAs {srcFs : List (String × List Char)} {src : Value}
    {srcRemote : List Char} {dstRemote : String} {config : List (String × List Char)}
    {vs : List (String × Value)} (hsrc : Denotes (objectText srcFs) src)
    (hremote : JsonGrammar.Plain srcRemote) (htarget : JsonGrammar.Plain dstRemote.toList)
    (hconfig : Denotes (objectText config) (.object vs)) :
    List.Forall₂ ReadsAs (copyMembers srcFs srcRemote dstRemote config)
      (copyValues src (String.ofList srcRemote) dstRemote vs) :=
  have hroot : Denotes (quoted ['/']) (.string "/") := denotes_quoted (by decide +kernel)
  .cons (readsAs (by decide +kernel) hsrc) <|
  .cons (readsAs (by decide +kernel) (denotes_quoted hremote)) <|
  .cons (readsAs (by decide +kernel) hroot) <|
  .cons (readsAs (by decide +kernel) (denotes_quotedArg htarget)) <|
  .cons (readsAs (by decide +kernel) hconfig) <|
  .cons (readsAs (by decide +kernel) (denotes_flagText true)) .nil

/-! ## What the requests say -/

variable {p : RCloneParameters} {relative : String → String → String} {m : TransferMetadata}
  {dest : String}

/-- From two levels below the root, an absolute path after two steps up leads to itself;
no other path is led to. -/
theorem leadsTo_iff (path : String) :
    LeadsTo (String.ofList ('.' :: '.' :: '/' :: '.' :: '.' :: path.toList)) path ↔
      path.toList.head? = some '/' := by
  constructor
  · intro h
    simpa [lexicallyNormal] using (congrArg Prod.fst (h [] [])).symm
  · intro h a b
    obtain ⟨l, hl⟩ := List.head?_eq_some_iff.1 h
    have hremote : components (String.ofList ('.' :: '.' :: '/' :: '.' :: '.' :: path.toList)) =
        ['.', '.'] :: ['.', '.'] :: l.splitOn '/' := by
      simp [components, hl, List.splitOn_cons_eq_if_modifyHead]
    have hpath : components path = [] :: l.splitOn '/' := by
      simp [components, hl, List.splitOn_cons_eq_if_modifyHead]
    rw [lexicallyNormal, hremote, hpath, h]
    simp [enter]

/-- What an asked for copy is read as. -/
def copyValue (p : RCloneParameters) (relative : String → String → String)
    (m : TransferMetadata) (dest : String) : Value :=
  if p.protocol = "http" then
    .object (copyValues (.object [("type", .string "http"),
      ("url", .string (String.ofList ("http://".toList ++
        (m.src.ip.toList ++ ':' :: JsonText.printInt p.port))))])
      (relative m.filePath p.rootFolder) (target m dest)
      (configValues p [("StreamingUploadCutoff", .string p.chunkSize)]))
  else
    .object (copyValues (.object [("type", .string "sftp"), ("host", .string m.src.ip),
      ("user", .string p.user), ("port", .string (String.ofList (JsonText.printInt p.port))),
      ("key_file", .string "/home/ljoly/.ssh/id_rsa"),
      ("disable_concurrent_writes", .string "false"),
      ("concurrency", .string (String.ofList (JsonText.printInt p.simultTransfers)))])
      (String.ofList ('.' :: '.' :: '/' :: '.' :: '.' :: m.filePath.toList)) (target m dest)
      (configValues p []))

theorem plain_append {l l' : List Char} (h : JsonGrammar.Plain l) (h' : JsonGrammar.Plain l') :
    JsonGrammar.Plain (l ++ l') :=
  fun c hc => (List.mem_append.1 hc).elim (h c) (h' c)

/-- A request over HTTP. -/
theorem copyText_http (hhttp : p.protocol = "http")
    (hplain : ∀ s ∈ stringArgs p relative m dest, JsonGrammar.Plain s.toList) :
    ∃ text, copyText p relative m dest = some text ∧ bytes text = copySize p relative m dest ∧
      read text = some (copyValue p relative m dest) := by
  have hip := hplain m.src.ip (by simp [stringArgs])
  have htarget := hplain (target m dest) (by simp [stringArgs])
  have hchunk := hplain p.chunkSize (by simp [stringArgs])
  have hbuffer := hplain p.bufferSize (by simp [stringArgs])
  have hrelative := hplain (relative m.filePath p.rootFolder) (by simp [stringArgs, hhttp])
  have hurl : JsonGrammar.Plain
      ("http://".toList ++ (cString m.src.ip ++ ':' :: JsonText.printInt p.port)) := by
    rw [cString_of_plain hip]
    refine plain_append (by decide +kernel) (plain_append hip ?_)
    exact plain_append (l := [':']) (by decide +kernel) (plain_printInt _)
  have hsource : Denotes (objectText (httpSource p m.src.ip)) _ :=
    denotes_objectText (.cons (readsAs (by decide +kernel) (denotes_quoted (by decide +kernel))) <|
      .cons (readsAs (by decide +kernel) (denotes_quoted hurl)) .nil) (by simp [httpSource])
  have hstreaming : ReadsAs ("StreamingUploadCutoff", quotedArg p.chunkSize)
      ("StreamingUploadCutoff", .string p.chunkSize) :=
    readsAs (by decide +kernel) (denotes_quotedArg hchunk)
  have hconfig := denotes_objectText
    (configMembers_readsAs hchunk hbuffer (.cons hstreaming .nil)) (by simp [configMembers])
  have hcopy := denotes_objectText (copyMembers_readsAs hsource
    (cString_of_plain hrelative ▸ hrelative) htarget hconfig) (by simp [copyMembers])
  refine ⟨_, if_pos hhttp, ?_, ?_⟩
  · have hkey : bytes "StreamingUploadCutoff".toList = 21 := by decide
    rw [bytes_copyMembers htarget, bytes_httpSource hip, bytes_configMembers hchunk hbuffer,
      copySize, if_pos hhttp, stringArgs, if_pos hhttp, cString_of_plain hrelative]
    simp only [List.map_append, List.sum_append, List.map_cons, List.map_nil, List.sum_cons,
      List.sum_nil, bytes_quotedArg hchunk, hkey]
    omega
  · rw [hcopy.read, copyValue, if_pos hhttp, cString_of_plain hrelative, cString_of_plain hip,
      String.ofList_toList, String.ofList_toList]

/-- A request over SFTP. -/
theorem copyText_sftp (hsftp : p.protocol = "sftp")
    (hplain : ∀ s ∈ stringArgs p relative m dest, JsonGrammar.Plain s.toList) :
    ∃ text, copyText p relative m dest = some text ∧ bytes text = copySize p relative m dest ∧
      read text = some (copyValue p relative m dest) := by
  have hhttp : p.protocol ≠ "http" := by
    rw [hsftp]
    decide
  have hip := hplain m.src.ip (by simp [stringArgs])
  have htarget := hplain (target m dest) (by simp [stringArgs])
  have hchunk := hplain p.chunkSize (by simp [stringArgs])
  have hbuffer := hplain p.bufferSize (by simp [stringArgs])
  have huser := hplain p.user (by simp [stringArgs, hhttp])
  have hpath := hplain m.filePath (by simp [stringArgs, hhttp])
  have hremote : JsonGrammar.Plain ('.' :: '.' :: '/' :: '.' :: '.' :: cString m.filePath) := by
    rw [cString_of_plain hpath]
    exact plain_append (l := ['.', '.', '/', '.', '.']) (by decide +kernel) hpath
  have hsource : Denotes (objectText (sftpSource p m.src.ip)) _ :=
    denotes_objectText (.cons (readsAs (by decide +kernel) (denotes_quoted (by decide +kernel))) <|
      .cons (readsAs (by decide +kernel) (denotes_quotedArg hip)) <|
      .cons (readsAs (by decide +kernel) (denotes_quotedArg huser)) <|
      .cons (readsAs (by decide +kernel) (denotes_quoted (plain_printInt p.port))) <|
      .cons (readsAs (by decide +kernel) (denotes_quoted (by decide +kernel))) <|
      .cons (readsAs (by decide +kernel) (denotes_quoted (by decide +kernel))) <|
      .cons (readsAs (by decide +kernel) (denotes_quoted (plain_printInt p.simultTransfers))) .nil)
      (by simp [sftpSource])
  have hconfig := denotes_objectText (configMembers_readsAs hchunk hbuffer .nil)
    (by simp [configMembers])
  have hcopy := denotes_objectText (copyMembers_readsAs hsource hremote htarget hconfig)
    (by simp [copyMembers])
  refine ⟨_, (if_neg hhttp).trans (if_pos hsftp), ?_, ?_⟩
  · have hup : bytes ('.' :: '.' :: '/' :: '.' :: '.' :: m.filePath.toList) =
        bytes m.filePath.toList + 5 := by
      simp [bytes_cons, Char.utf8Size]
      omega
    rw [bytes_copyMembers htarget, bytes_sftpSource hip huser, bytes_configMembers hchunk hbuffer,
      copySize, if_neg hhttp, stringArgs, if_neg hhttp, cString_of_plain hpath, hup]
    simp only [List.map_append, List.sum_append, List.map_cons, List.map_nil, List.sum_cons,
      List.sum_nil]
    omega
  · rw [hcopy.read, copyValue, if_neg hhttp, cString_of_plain hpath]
    rfl

/-- **A copy whose strings are plain** is printed to its length and read as it was
meant. -/
theorem copyText_plain (hprotocol : p.protocol = "http" ∨ p.protocol = "sftp")
    (hplain : ∀ s ∈ stringArgs p relative m dest, JsonGrammar.Plain s.toList) :
    ∃ text, copyText p relative m dest = some text ∧ bytes text = copySize p relative m dest ∧
      read text = some (copyValue p relative m dest) :=
  hprotocol.elim (fun h => copyText_http h hplain) fun h => copyText_sftp h hplain

/-- What a copy that is read asks for: the threads that write stand for those that check,
and the other way round. -/
theorem asksForCopy_iff_of_read {text : List Char} {src : Value} {remote : String}
    {streaming : List (String × Value)}
    (hread : read text = some (.object (copyValues src remote (target m dest)
      (configValues p streaming)))) :
    AsksForCopy p relative m dest text ↔
      p.transferThreads = p.checkersThreads ∧ IsSource p relative m remote := by
  constructor
  · rintro ⟨v, config, hv, hconfig, ⟨remote', hremote, hsource⟩, -, -, hstreams, -⟩
    obtain rfl := Option.some.inj (hread.symm.trans hv)
    obtain rfl : Value.object (configValues p streaming) = config := Option.some.inj hconfig
    obtain rfl : remote = remote' := Option.some.inj hremote
    have hchecking : (Value.number (JsonText.printInt p.checkersThreads)).integer? =
        some p.transferThreads := hstreams
    rw [integer?_printInt] at hchecking
    exact ⟨(Option.some.inj hchecking).symm, hsource⟩
  · rintro ⟨hthreads, hsource⟩
    refine ⟨_, _, hread, rfl, ⟨remote, rfl, hsource⟩, rfl, integer?_printInt p.simultTransfers,
      ?_, ?_⟩
    · rw [hthreads]
      exact integer?_printInt p.checkersThreads
    · rw [← hthreads]
      exact integer?_printInt p.transferThreads

theorem asksForCopy_iff {text : List Char}
    (hread : read text = some (copyValue p relative m dest)) :
    AsksForCopy p relative m dest text ↔
      p.transferThreads = p.checkersThreads ∧
        (p.protocol ≠ "http" → m.filePath.toList.head? = some '/') := by
  rw [copyValue] at hread
  split_ifs at hread with hhttp
  · rw [asksForCopy_iff_of_read hread, IsSource, if_pos hhttp]
    exact and_congr_right fun _ => iff_of_true rfl fun hne => absurd hhttp hne
  · rw [asksForCopy_iff_of_read hread, IsSource, if_neg hhttp, leadsTo_iff]
    exact and_congr_right fun _ => ⟨fun h _ => h, fun h => h hhttp⟩

/-! ## The rate limits -/

theorem wellFormed_rateText_iff (hplain : JsonGrammar.Plain p.bwlimit.toList) :
    WellFormed 100 (rateText p) ↔ bytes p.bwlimit.toList ≤ 87 := by
  have hbytes : bytes (rateText p) = bytes p.bwlimit.toList + 12 := by
    rw [rateText, bytes_objectText (by simp)]
    simp only [List.map_cons, List.map_nil, List.sum_cons, List.sum_nil, bytes_quotedArg hplain]
    have hkey : bytes "rate".toList = 4 := by decide
    omega
  have hread : read (rateText p) = some (.object [("rate", .string p.bwlimit)]) :=
    (denotes_objectText (.cons (readsAs (by decide +kernel) (denotes_quotedArg hplain)) .nil)
      (by simp)).read
  rw [WellFormed, sprintf, hbytes]
  constructor
  · rintro ⟨t, ht, -⟩
    simp only [Option.ite_none_right_eq_some] at ht
    omega
  · intro h
    exact ⟨_, if_pos (by omega), by rw [hread]; rfl⟩

/-- Without quotes the rate limit has to be JSON itself. -/
theorem wellFormed_resumeText_iff (hplain : JsonGrammar.Plain p.bwlimit.toList) :
    WellFormed 100 (resumeText p) ↔
      bytes p.bwlimit.toList ≤ 79 ∧ (read p.bwlimit.toList).isSome = true := by
  have hbytes : bytes (resumeText p) = bytes p.bwlimit.toList + 20 := by
    rw [resumeText, bytes_objectText (by simp), cString_of_plain hplain]
    simp only [List.map_cons, List.map_nil, List.sum_cons, List.sum_nil]
    have hkey : bytes "bytesPerSecond".toList = 14 := by decide
    omega
  have hread : (read (resumeText p)).isSome = true ↔ (read p.bwlimit.toList).isSome = true := by
    rw [resumeText, cString_of_plain hplain]
    exact read_objectText_isSome_iff (by decide +kernel) fun c hc => (hplain c hc).1
  rw [WellFormed, sprintf, hbytes, ← hread]
  constructor
  · rintro ⟨t, ht, hsome⟩
    simp only [Option.ite_none_right_eq_some, Option.some.injEq] at ht
    obtain ⟨hsize, rfl⟩ := ht
    exact ⟨by omega, hsome⟩
  · rintro ⟨hsize, hsome⟩
    exact ⟨_, if_pos (by omega), hsome⟩

/-! ## When the requests are right -/

/-- The strings that are printed stand for themselves between quotes. -/
structure PlainStrings (p : RCloneParameters) (relative : String → String → String)
    (m : TransferMetadata) (dest : String) : Prop where
  copy : ¬ Outside ⟨p.protocol, p.rootFolder⟩ relative m →
    ∀ s ∈ stringArgs p relative m dest, JsonGrammar.Plain s.toList
  rate : JsonGrammar.Plain p.bwlimit.toList

/-- The copy fits, the two numbers of threads are the same, a path over SFTP is absolute,
and the rate limit is short and JSON itself. -/
structure Expressible (p : RCloneParameters) (relative : String → String → String)
    (m : TransferMetadata) (dest : String) : Prop where
  plain : PlainStrings p relative m dest
  copy : ¬ Outside ⟨p.protocol, p.rootFolder⟩ relative m →
    copySize p relative m dest < 1000 ∧ p.transferThreads = p.checkersThreads ∧
      (p.protocol ≠ "http" → m.filePath.toList.head? = some '/')
  rate : bytes p.bwlimit.toList ≤ 79 ∧ (read p.bwlimit.toList).isSome = true

/-- With plain strings the requests are right just when they can be. -/
theorem requestsRight_iff_of_plain (hprotocol : p.protocol = "http" ∨ p.protocol = "sftp")
    (hplain : PlainStrings p relative m dest) :
    RequestsRight p relative m dest ↔ Expressible p relative m dest := by
  have hcopy (hinside : ¬ Outside ⟨p.protocol, p.rootFolder⟩ relative m) :
      (∃ text, (copyText p relative m dest).bind (sprintf 1000) = some text ∧
          AsksForCopy p relative m dest text) ↔
        copySize p relative m dest < 1000 ∧ p.transferThreads = p.checkersThreads ∧
          (p.protocol ≠ "http" → m.filePath.toList.head? = some '/') := by
    obtain ⟨text, htext, hbytes, hread⟩ := copyText_plain hprotocol (hplain.copy hinside)
    rw [htext, Option.bind_some, sprintf, hbytes, ← asksForCopy_iff hread]
    constructor
    · rintro ⟨text', htext', hasks⟩
      simp only [Option.ite_none_right_eq_some, Option.some.injEq] at htext'
      obtain ⟨hsize, rfl⟩ := htext'
      exact ⟨hsize, hasks⟩
    · rintro ⟨hsize, hasks⟩
      exact ⟨text, if_pos hsize, hasks⟩
  constructor
  · intro h
    exact ⟨hplain, fun hinside => (hcopy hinside).1 (h.copy hinside),
      (wellFormed_resumeText_iff hplain.rate).1 h.resume⟩
  · intro h
    exact ⟨fun hinside => (hcopy hinside).2 (h.copy hinside),
      (wellFormed_rateText_iff hplain.rate).2 (h.rate.1.trans (by decide)),
      (wellFormed_resumeText_iff hplain.rate).2 h.rate⟩

/-- **When the requests say what was asked for:** the strings are printed as they are and
need no escaping, the copy fits its buffer, as many threads write as check, and the rate
limit is JSON by itself.  Among the inputs whose strings need no escaping no others will
do. -/
theorem requests_right_iff (p : RCloneParameters) (relative : String → String → String)
    (m : TransferMetadata) (dest : String)
    (hprotocol : p.protocol = "http" ∨ p.protocol = "sftp") :
    (Expressible p relative m dest → RequestsRight p relative m dest) ∧
      (PlainStrings p relative m dest →
        (RequestsRight p relative m dest ↔ Expressible p relative m dest)) :=
  ⟨fun h => (requestsRight_iff_of_plain hprotocol h.plain).2 h,
    fun h => requestsRight_iff_of_plain hprotocol h⟩

/-! ### Default parameters -/

/-- What the constructor has when the group says nothing. -/
def defaults : RCloneParameters :=
  ⟨"http", "anonymous", 8080, "off", 10, "/", 200, 4, 1, "10G", "100G", false, true⟩

/-- A file of another host. -/
def remoteFile : TransferMetadata :=
  { TransferMetadata.blank with filePath := "/data/a", src := ⟨"10.0.0.1", 42100⟩ }

/-- One thread, and a rate limit in bytes. -/
theorem requests_right_iff_bytes :
    RequestsRight { defaults with bwlimit := "1048576", transferThreads := 1 }
      (fun _ _ => "data/a") remoteFile "/work" :=
  (requests_right_iff _ _ _ _ (.inl rfl)).1
    { plain := ⟨fun _ => by decide +kernel, by decide +kernel⟩
      copy := fun _ => ⟨by decide +kernel, rfl, fun h => absurd rfl h⟩
      rate := ⟨by decide +kernel, by decide +kernel⟩ }

/-- **The default parameters** ask for 4 threads that check and one that writes, instead
of 4 that write and one that checks, and cannot resume. -/
theorem default_requests_wrong :
    rcloneParameters "/work" (.object []) = .ok defaults ∧
      ((((copyText defaults (fun _ _ => "data/a") remoteFile "/work").bind read).bind
        (Value.member? "_config")).bind (Value.member? "Checkers")).bind Value.integer? = some 4 ∧
      defaults.checkersThreads = 1 ∧ (read (resumeText defaults)).isNone = true ∧
      ¬ RequestsRight defaults (fun _ _ => "data/a") remoteFile "/work" := by
  have hcheckers : ((((copyText defaults (fun _ _ => "data/a") remoteFile "/work").bind read).bind
      (Value.member? "_config")).bind (Value.member? "Checkers")).bind Value.integer? = some 4 := by
    have hplain : ∀ s ∈ stringArgs defaults (fun _ _ => "data/a") remoteFile "/work",
        JsonGrammar.Plain s.toList := by decide +kernel
    obtain ⟨text, htext, -, hread⟩ := copyText_plain (.inl rfl) hplain
    rw [htext, Option.bind_some, hread]
    exact integer?_printInt 4
  refine ⟨rfl, hcheckers, rfl, by decide +kernel, fun h => ?_⟩
  obtain ⟨t, ht, hsome⟩ := h.resume
  have htext : t = resumeText defaults := by
    simp only [sprintf, Option.ite_none_right_eq_some, Option.some.injEq] at ht
    exact ht.2.symm
  rw [htext] at hsome
  exact absurd hsome (by decide +kernel)

end RClone

end Transfer
end SNBModules
