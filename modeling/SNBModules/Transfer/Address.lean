import SNBModules.Transfer.Types

/-!
# Addresses and paths

Source: `ip_format.hpp`, and what the metadata classes do with
`std::filesystem::path`.

`set_ip` splits a C string with `strtok_r` on `:` and reads the port with
`std::stoi`, so that empty parts are skipped and what follows the digits of the
port is dropped.  A path is the text it was made from; two paths are equal when
their elements are.
-/

namespace SNBModules
namespace Transfer

/-! ## Addresses -/

/-- `c_str()`, as the C functions read it: up to the first zero byte. -/
def cString (s : String) : List Char := s.toList.takeWhile (· ≠ '\x00')

/-- The tokens of `strtok_r(s, ":")`: the runs between colons that are not empty. -/
def colonTokens (s : List Char) : List (List Char) := (s.splitOn ':').filter (· ≠ [])

/-- `isspace` in the C locale. -/
def isSpace (c : Char) : Bool := c = ' ' || ('\t' ≤ c && c ≤ '\r')

/-- `std::stoi`: blanks, a sign, and as many digits as there are. -/
def stoi (s : List Char) : Except Exn ℤ :=
  let s := s.dropWhile isSpace
  let digits := (match s with
    | '-' :: l => l
    | '+' :: l => l
    | l => l).takeWhile Char.isDigit
  let value : ℤ := digits.foldl (fun n c => 10 * n + (c.toNat - '0'.toNat : ℕ)) 0
  let value := if s.head? = some '-' then -value else value
  if digits = [] then .error (.invalidArgument "stoi")
  else if value < -2 ^ 31 ∨ 2 ^ 31 ≤ value then .error (.outOfRange "stoi")
  else .ok value

/-- `IPFormat`. -/
structure IPFormat where
  ip : String
  port : ℤ
  deriving DecidableEq, Repr

namespace IPFormat

/-- `IPFormat()`. -/
def default : IPFormat := ⟨"0.0.0.0", 0⟩

/-- `set_port`. -/
def setPort (a : IPFormat) (port : ℤ) : Except Exn IPFormat :=
  if port < 0 ∨ port > 65535 then
    .error (.invalidArgument "Port must be between 0 and 65535")
  else
    .ok { a with port }

/-- `set_ip`. -/
def setIp (a : IPFormat) (ip : String) : Except Exn IPFormat :=
  if ip = "" then
    .error (.invalidArgument "IP address cannot be empty")
  else
    match colonTokens (cString ip) with
    | [host] => .ok { a with ip := String.ofList host }
    | [host, port] => do
        let a ← a.setPort (← stoi port)
        .ok { a with ip := String.ofList host }
    | _ => .error (.invalidArgument "Invalid IP address format (IP:PORT or IP)")

/-- `IPFormat(ip, port)`. -/
def new (ip : String) (port : ℤ) : Except Exn IPFormat := do
  let a ← default.setPort port
  a.setIp ip

/-- `get_ip_port`. -/
def getIpPort (a : IPFormat) : String := a.ip ++ ":" ++ toString a.port

example : new "127.0.0.1:42100" 0 = .ok ⟨"127.0.0.1", 42100⟩ := by decide +kernel

end IPFormat

/-! ## Paths -/

/-- The loop that removes `./`: after a removal the search goes on at the same
place. -/
def removeDotSlash : List Char → List Char
  | '.' :: '/' :: l => removeDotSlash l
  | c :: l => c :: removeDotSlash l
  | [] => []

/-- `std::filesystem::absolute`, in the working directory `cwd`; an empty path is
refused. -/
def absolute (cwd path : String) : Except Exn String :=
  if path = "" then .error .filesystemError
  else if path.toList.head? = some '/' then .ok path
  else if cwd.toList.getLast? = some '/' then .ok (cwd ++ path)
  else .ok (cwd ++ "/" ++ path)

/-- The path that the metadata classes keep of one that they are given. -/
def normalised (cwd path : String) : Except Exn String :=
  absolute cwd (String.ofList (removeDotSlash path.toList))

/-- What `operator==` of `std::filesystem::path` compares: whether there is a
root directory, and the names, with an empty one at the end after a final
separator. -/
def pathElements (path : String) : Bool × List (List Char) :=
  let parts := path.toList.splitOn '/'
  let names := parts.filter (· ≠ [])
  (path.toList.head? = some '/',
    if names ≠ [] ∧ parts.getLast? = some [] then names ++ [[]] else names)

example : pathElements "/a//b" = pathElements "/a/b" := by decide +kernel

end Transfer
end SNBModules
