import Mathlib.Data.List.TakeWhile
import Shroudb.Wire.Substring
import Shroudb.Client.RemoteStore

/-! Connection URIs: what `parse_uri` reads, and the name TLS is to verify. -/
namespace Shroudb
open Wire

structure ConnectionConfig where
  host : String
  port : UInt16
  tls : Bool
  authToken : Option String
deriving DecidableEq, Repr

def defaultPort : UInt16 := 6399

def parseUInt16 (s : String) : Except IntErrorKind UInt16 :=
  (parseUnsigned (2 ^ 16 - 1) s).map UInt16.ofNat

def printUInt16 (n : UInt16) : String := n.toNat.repr

/-- What follows the last colon is the port, if it is one. -/
def splitPort (hostport : List Char) : String × UInt16 :=
  match splitLast ':' hostport with
  | some (host, portStr) =>
    match parseUInt16 (String.ofList portStr) with
    | .ok port => (String.ofList host, port)
    | .error _ => (String.ofList hostport, defaultPort)
  | none => (String.ofList hostport, defaultPort)

/-- The URI after its scheme. A path is cut off. -/
def parseAuthority (tls : Bool) (rest : List Char) : ConnectionConfig :=
  let (authToken, hostport) :=
    match splitFirst ['@'] rest with
    | some (token, hostport) => (some (String.ofList token), hostport)
    | none => (none, rest)
  let (host, port) := splitPort (hostport.takeWhile (· ≠ '/'))
  ⟨host, port, tls, authToken⟩

def parseUri (uri : String) : Except ClientError ConnectionConfig :=
  match stripStart "shroudb+tls://" uri.toList with
  | some rest => .ok (parseAuthority true rest)
  | none =>
    match stripStart "shroudb://" uri.toList with
    | some rest => .ok (parseAuthority false rest)
    | none => .error (.protocol ("invalid URI scheme: " ++ uri))

/-- The address that `from_uri` connects to. -/
def ConnectionConfig.addr (config : ConnectionConfig) : String :=
  config.host ++ ":" ++ printUInt16 config.port

/-- The name whose certificate `connect_tls` asks for. -/
def serverName (addr : String) : String :=
  if addr.toList.head? = some '[' then
    String.ofList ((addr.toList.takeWhile (· ≠ ']')).dropWhile (· = '['))
  else
    match splitLast ':' addr.toList with
    | some (host, _) => String.ofList host
    | none => addr

/-! ## URIs -/

/-- A host name, or an address literal in brackets. -/
inductive UriHost where
  | name (text : String) (plain : ∀ c ∈ text.toList, c ∉ ['@', '/', ':', '[', ']'])
  | literal (text : String) (plain : ∀ c ∈ text.toList, c ∉ ['@', '/', '[', ']'])

namespace UriHost

def text : UriHost → String
  | .name text _ => text
  | .literal text _ => "[" ++ text ++ "]"

/-- The host with its brackets removed. -/
def bare : UriHost → String
  | .name text _ => text
  | .literal text _ => text

end UriHost

/-- What a connection URI says. -/
structure ConnectionUri where
  tls : Bool
  token : Option String
  host : UriHost
  port : Option UInt16
  token_free : ∀ text ∈ token, '@' ∉ text.toList

namespace ConnectionUri

def scheme (u : ConnectionUri) : String := if u.tls then "shroudb+tls://" else "shroudb://"

def tokenText (u : ConnectionUri) : String :=
  match u.token with
  | some token => token ++ "@"
  | none => ""

def portText (u : ConnectionUri) : String :=
  match u.port with
  | some port => ":" ++ printUInt16 port
  | none => ""

def render (u : ConnectionUri) : String := u.scheme ++ (u.tokenText ++ (u.host.text ++ u.portText))

def config (u : ConnectionUri) : ConnectionConfig :=
  ⟨u.host.text, u.port.getD defaultPort, u.tls, u.token⟩

end ConnectionUri

/-! ## Hosts and ports -/

theorem parseUInt16_print (n : UInt16) : parseUInt16 (printUInt16 n) = .ok n := by
  have hn := n.toNat_lt
  rw [parseUInt16, printUInt16, parseUnsigned_repr (by omega)]
  simp [Except.map]

theorem not_mem_printUInt16 {c : Char} (hc : c.isDigit = false) (n : UInt16) :
    c ∉ (printUInt16 n).toList := by
  rw [printUInt16, Nat.toList_repr]
  intro hmem
  rw [toDigits_isDigit hmem] at hc
  cases hc

/-- Nothing that holds a bracket is a port. -/
theorem parseUInt16_bracket {s : String} (h : ']' ∈ s.toList) : ∃ e, parseUInt16 s = .error e := by
  cases hparse : parseUnsigned (2 ^ 16 - 1) s with
  | error e => exact ⟨e, by rw [parseUInt16, hparse, Except.map]⟩
  | ok n =>
    rcases isDigit_of_parseUnsigned hparse ']' h with hsign | hdigit
    · exact absurd hsign (by decide)
    · exact absurd hdigit (by decide)

theorem splitLast_port (host : String) (port : UInt16) :
    splitLast ':' (host ++ ":" ++ printUInt16 port).toList =
      some (host.toList, (printUInt16 port).toList) := by
  refine splitLast_iff.mpr ⟨?_, not_mem_printUInt16 (by decide) port⟩
  simp

theorem splitPort_port (host : String) (port : UInt16) :
    splitPort (host ++ ":" ++ printUInt16 port).toList = (host, port) := by
  simp only [splitPort, splitLast_port, String.ofList_toList, parseUInt16_print]

namespace UriHost
variable (host : UriHost)

theorem not_mem_text {c : Char} (hc : c = '@' ∨ c = '/') : c ∉ host.text.toList := by
  cases host with
  | name text plain =>
    intro hmem
    rcases hc with rfl | rfl
    · exact plain _ hmem (by simp)
    · exact plain _ hmem (by simp)
  | literal text plain =>
    rw [UriHost.text, String.toList_append, String.toList_append, List.mem_append, List.mem_append]
    rintro ((hopen | hmem) | hclose)
    · rcases hc with rfl | rfl <;> simp at hopen
    · rcases hc with rfl | rfl
      · exact plain _ hmem (by simp)
      · exact plain _ hmem (by simp)
    · rcases hc with rfl | rfl <;> simp at hclose

/-- A host without a port is taken whole: what follows a colon of a literal ends in a bracket. -/
theorem splitPort_text : splitPort host.text.toList = (host.text, defaultPort) := by
  cases host with
  | name text plain =>
    have hcolon : splitLast ':' text.toList = none :=
      splitLast_eq_none_iff.mpr fun hmem => plain _ hmem (by simp)
    simp [splitPort, UriHost.text, hcolon]
  | literal text plain =>
    cases hsplit : splitLast ':' (UriHost.literal text plain).text.toList with
    | none => simp [splitPort, hsplit]
    | some p =>
      obtain ⟨before, after⟩ := p
      obtain ⟨hl, -⟩ := splitLast_iff.mp hsplit
      have hlast : ']' ∈ after := by
        have hend : (before ++ ':' :: after).getLast? = some ']' := by
          rw [← hl, UriHost.text, String.toList_append]
          exact List.getLast?_concat
        cases after with
        | nil => simp at hend
        | cons c cs =>
          rw [List.getLast?_append_of_ne_nil _ (by simp), List.getLast?_cons_cons] at hend
          exact List.mem_of_getLast? hend
      obtain ⟨e, he⟩ := parseUInt16_bracket (s := String.ofList after) (by simpa using hlast)
      simp [splitPort, hsplit, he]

/-- The name to verify is what the brackets hold, or the whole host. -/
theorem serverName_text (port : UInt16) :
    serverName (host.text ++ ":" ++ printUInt16 port) = host.bare := by
  cases host with
  | name text plain =>
    have hhead : (text ++ ":" ++ printUInt16 port).toList.head? ≠ some '[' := by
      intro hhead
      cases htext : text.toList with
      | nil => simp [htext] at hhead
      | cons c cs =>
        obtain rfl : c = '[' := by simpa [htext] using hhead
        exact plain '[' (by simp [htext]) (by simp)
    rw [serverName, UriHost.text, if_neg hhead]
    simp only [splitLast_port, String.ofList_toList, bare]
  | literal text plain =>
    have hinner : ∀ c ∈ text.toList, c ≠ '[' ∧ c ≠ ']' := by
      intro c hc
      exact ⟨by rintro rfl; exact plain _ hc (by simp), by rintro rfl; exact plain _ hc (by simp)⟩
    have haddr : ("[" ++ text ++ "]" ++ ":" ++ printUInt16 port).toList =
        ('[' :: text.toList) ++ ']' :: ':' :: (printUInt16 port).toList := by
      simp
    have htake : (('[' :: text.toList) ++ ']' :: ':' :: (printUInt16 port).toList).takeWhile
        (· ≠ ']') = '[' :: text.toList := by
      rw [List.takeWhile_append_of_pos, List.takeWhile_cons_of_neg (by simp), List.append_nil]
      intro c hc
      rcases List.mem_cons.mp hc with rfl | hc
      · decide
      · simpa using (hinner c hc).2
    have hdrop : ('[' :: text.toList).dropWhile (· = '[') = text.toList := by
      rw [List.dropWhile_cons_of_pos (by simp)]
      cases htext : text.toList with
      | nil => rfl
      | cons c cs =>
        have hc := (hinner c (by simp [htext])).1
        exact List.dropWhile_cons_of_neg (by simpa using hc)
    rw [serverName, UriHost.text, haddr, if_pos (by rfl), htake, hdrop, String.ofList_toList, bare]

end UriHost

/-! ## Round trip -/

theorem parseAuthority_token {rest : List Char} (u : ConnectionUri) (hrest : '@' ∉ rest) :
    parseAuthority u.tls (u.tokenText.toList ++ rest) =
      let (host, port) := splitPort (rest.takeWhile (· ≠ '/'))
      ⟨host, port, u.tls, u.token⟩ := by
  cases htoken : u.token with
  | none =>
    have hsplit : splitFirst ['@'] rest = none := splitFirst_singleton_eq_none_iff.mpr hrest
    simp [ConnectionUri.tokenText, htoken, parseAuthority, hsplit]
  | some token =>
    have hsplit : splitFirst ['@'] (token.toList ++ '@' :: rest) = some (token.toList, rest) :=
      splitFirst_singleton_iff.mpr ⟨rfl, u.token_free token htoken⟩
    simp [ConnectionUri.tokenText, htoken, parseAuthority, hsplit]

theorem parseUri_scheme (u : ConnectionUri) (rest : String) :
    parseUri (u.scheme ++ rest) = .ok (parseAuthority u.tls rest.toList) := by
  unfold ConnectionUri.scheme
  cases htls : u.tls with
  | true => simp only [if_true, parseUri, stripStart_append]
  | false =>
    have htls : stripStart "shroudb+tls://" ("shroudb://" ++ rest).toList = none := by
      simp [stripStart]
    simp only [Bool.false_eq_true, if_false, parseUri, htls, stripStart_append]

theorem splitPort_render (u : ConnectionUri) :
    splitPort (u.host.text ++ u.portText).toList = (u.host.text, u.port.getD defaultPort) := by
  unfold ConnectionUri.portText
  cases u.port with
  | none =>
    rw [String.append_empty]
    exact u.host.splitPort_text
  | some port =>
    rw [← String.append_assoc]
    exact splitPort_port _ _

theorem not_mem_hostport (u : ConnectionUri) {c : Char} (hc : c = '@' ∨ c = '/') :
    c ∉ (u.host.text ++ u.portText).toList := by
  rw [String.toList_append, List.mem_append, ConnectionUri.portText]
  rintro (hhost | hport)
  · exact u.host.not_mem_text hc hhost
  · cases hp : u.port with
    | none => simp [hp] at hport
    | some port =>
      simp only [hp, String.toList_append, List.mem_append] at hport
      rcases hport with hcolon | hport
      · rcases hc with rfl | rfl <;> simp at hcolon
      · refine not_mem_printUInt16 ?_ port hport
        rcases hc with rfl | rfl <;> decide

/-- A rendered URI is read back, and TLS is to verify the host it names. -/
theorem uri_read_back (u : ConnectionUri) :
    parseUri u.render = .ok u.config ∧ serverName u.config.addr = u.host.bare := by
  refine ⟨?_, u.host.serverName_text _⟩
  have hpath : (u.host.text ++ u.portText).toList.takeWhile (· ≠ '/') =
      (u.host.text ++ u.portText).toList := by
    rw [List.takeWhile_eq_self_iff]
    intro c hc
    have hne : c ≠ '/' := by
      rintro rfl
      exact not_mem_hostport u (Or.inr rfl) hc
    simpa using hne
  rw [ConnectionUri.render, parseUri_scheme, String.toList_append,
    parseAuthority_token u (not_mem_hostport u (Or.inl rfl)), hpath, splitPort_render]
  rfl

/-- An IPv6 literal, and a token that looks like a host and a path. -/
example : parseUri "shroudb+tls://a:b/c@[::1]:7000" = .ok ⟨"[::1]", 7000, true, some "a:b/c"⟩ ∧
    serverName "[::1]:7000" = "::1" := by
  decide

end Shroudb
