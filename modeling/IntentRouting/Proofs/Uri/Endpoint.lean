import IntentRouting.Proofs.Filter.Acceptance
import IntentRouting.Proofs.Number.Digits
import IntentRouting.Proofs.Uri.Hierarchy

/-!
# Endpoints

An authority is composed of user information, a host and a port. Which of its characters belong to
which part is decided by the last at sign, the first closing bracket and the first colon, so user
information may hold anything that an authority may hold and is never taken for the host.

Host and port are read back from every authority that is composed of proper parts
(`Endpoint.IsProper.host_and_port`). Rules rely on this when they compare hosts: one that names its
host without an asterisk takes only the URIs of this host, provided that it looks at the host. A
rule without a scheme does not, and such rules with a host are not valid.
-/

namespace IntentRouting

namespace Uri

/-- What an authority is composed of. -/
structure Endpoint where
  userInfo : Option String
  host : String
  port : Option UInt16
deriving DecidableEq

/-- A character that may stand in an authority. -/
def isAuthorityChar (c : Char) : Bool := !isForbidden c && c != '/' && c != '?' && c != '#'

/-- The hosts there are. -/
inductive IsHost : List Char → Prop where
  /-- An address in brackets, which may hold colons. -/
  | literal {address : List Char} (plain : '[' ∉ address ∧ ']' ∉ address ∧ '@' ∉ address) :
      IsHost ('[' :: address ++ [']'])
  | name {name : List Char} (someText : name ≠ [])
      (plain : '@' ∉ name ∧ ':' ∉ name ∧ name.head? ≠ some '[') : IsHost name

/-- What follows an authority: a path, a query or a fragment, if anything. -/
structure FollowsAuthority (tail : List Char) : Prop where
  first : ∀ c ∈ tail.head?, c = '/' ∨ c = '?' ∨ c = '#'
  allowed : ∀ c ∈ tail, isForbidden c = false

namespace Endpoint

variable {endpoint : Endpoint}

structure IsProper (endpoint : Endpoint) : Prop where
  userInfo : ∀ info ∈ endpoint.userInfo, ∀ c ∈ info.toList, isAuthorityChar c = true
  host : IsHost endpoint.host.toList
  hostAllowed : ∀ c ∈ endpoint.host.toList, isAuthorityChar c = true

/-- The port in decimal digits. -/
def portText (endpoint : Endpoint) : Option String :=
  endpoint.port.map fun port => String.ofList (Nat.toDigits 10 port.toNat)

def hostPort (endpoint : Endpoint) : List Char :=
  endpoint.host.toList ++ marked [':'] endpoint.portText

def chars (endpoint : Endpoint) : List Char :=
  match endpoint.userInfo with
  | none => endpoint.hostPort
  | some info => info.toList ++ '@' :: endpoint.hostPort

def text (endpoint : Endpoint) : String := String.ofList endpoint.chars

end Endpoint

section Hosts

variable {host : List Char}

theorem IsHost.at_notMem (isHost : IsHost host) : '@' ∉ host := by
  cases isHost with
  | literal plain => simp [plain.2.2]
  | name _ plain => exact plain.1

theorem IsHost.ne_nil (isHost : IsHost host) : host ≠ [] := by
  cases isHost with
  | literal _ => simp
  | name someText _ => exact someText

/-- The host ends at its first closing bracket, or at the first colon if it is a name. -/
theorem IsHost.hostChars_append (isHost : IsHost host) (port : Option String) :
    hostChars (host ++ marked [':'] port) = host ∧
      portChars? (host ++ marked [':'] port) = port.map String.toList := by
  cases isHost with
  | @literal address plain =>
      have absent : ']' ∉ '[' :: address := by
        simp [plain.2.1]
      have cut (after : List Char) :
          Text.cut ']' ('[' :: (address ++ ']' :: after)) = ('[' :: address, some after) :=
        Text.cut_append absent
      cases port <;> simp [hostChars, portChars?, marked, cut]
  | name someText plain =>
      have cut := cut_marked plain.2.1 port
      -- a name is not taken for a literal
      have named (rest : List Char) : host ++ marked [':'] port ≠ '[' :: rest := by
        intro whole
        apply plain.2.2
        rcases List.exists_cons_of_ne_nil someText with ⟨first, more, rfl⟩
        simpa using (List.cons.inj whole).1
      generalize host ++ marked [':'] port = hostPort at cut named
      constructor
      · rw [hostChars.eq_def]
        split
        · exact absurd rfl (named _)
        · rw [cut]
      · rw [portChars?.eq_def]
        split
        · exact absurd rfl (named _)
        · rw [cut]

theorem readPort?_toDigits (port : UInt16) :
    readPort? (Nat.toDigits 10 port.toNat) = some port.toNat := by
  have within : (port.toNat : Int) ≤ portBounds.highest := by
    have small := port.toNat_lt
    change (port.toNat : Int) ≤ 65535
    omega
  simp [readPort?, Integer.read_toDigits (.inl rfl) within, Except.toOption]

end Hosts

namespace Endpoint

variable {endpoint : Endpoint} {uri : Uri}

theorem of_mem_portText {c : Char} (member : c ∈ marked [':'] endpoint.portText) :
    isAuthorityChar c = true ∧ c ≠ '@' := by
  have digits : ∀ digit : Fin 10,
      isAuthorityChar (Nat.digitChar digit) = true ∧ Nat.digitChar digit ≠ '@' := by
    decide
  cases found : endpoint.port with
  | none => simp [portText, found, marked] at member
  | some port =>
      simp only [portText, found, Option.map_some, marked, String.toList_ofList, List.mem_append,
        List.mem_singleton] at member
      rcases member with rfl | written
      · decide
      · rcases Integer.exists_digit_of_mem_toDigits (.inl rfl) written with ⟨digit, small, rfl⟩
        exact digits ⟨digit, small⟩

theorem IsProper.at_notMem (proper : endpoint.IsProper) : '@' ∉ endpoint.hostPort := by
  have notInPort : '@' ∉ marked [':'] endpoint.portText :=
    fun member => (of_mem_portText member).2 rfl
  simp [hostPort, proper.host.at_notMem, notInPort]

theorem IsProper.allowed (proper : endpoint.IsProper) :
    ∀ c ∈ endpoint.text.toList, isAuthorityChar c = true := by
  have ofHostPort : ∀ c ∈ endpoint.hostPort, isAuthorityChar c = true := by
    intro c member
    rcases List.mem_append.1 member with inHost | inPort
    · exact proper.hostAllowed c inHost
    · exact (of_mem_portText inPort).1
  intro c member
  rw [text, String.toList_ofList, chars] at member
  split at member
  · exact ofHostPort c member
  · rename_i info given
    simp only [List.mem_append, List.mem_cons] at member
    rcases member with inInfo | rfl | behind
    · exact proper.userInfo info given c inInfo
    · decide
    · exact ofHostPort c behind

/-- The last at sign is the one behind the user information. -/
theorem IsProper.hostAndPort_chars (proper : endpoint.IsProper) :
    hostAndPort endpoint.chars = endpoint.hostPort := by
  cases given : endpoint.userInfo with
  | none => simp [hostAndPort, chars, given, Text.cutLast?_eq_none_iff.2 proper.at_notMem]
  | some info => simp [hostAndPort, chars, given, Text.cutLast?_append proper.at_notMem]

/-- Host and port are read back from the authority. -/
theorem IsProper.host_and_port (proper : endpoint.IsProper)
    (composed : uri.authority = some endpoint.text) :
    uri.host = some endpoint.host ∧ uri.port = endpoint.port.map UInt16.toNat := by
  have parts := proper.host.hostChars_append endpoint.portText
  have someText := proper.host.ne_nil
  rw [← hostPort, ← proper.hostAndPort_chars] at parts
  constructor
  · simp [Uri.host, composed, text, parts.1, someText]
  · cases given : endpoint.port <;>
      simp [Uri.port, composed, text, parts.2, portText, given, readPort?_toDigits]

end Endpoint

/-- An authority of allowed characters can be followed by everything that follows authorities. -/
theorem exists_parse_authority {scheme authority tail : String}
    (valid : isScheme scheme.toList = true)
    (allowed : ∀ c ∈ authority.toList, isAuthorityChar c = true)
    (follows : FollowsAuthority tail.toList) :
    ∃ uri, parse (scheme ++ "://" ++ authority ++ tail) = .ok uri ∧
      uri.scheme = some scheme ∧ uri.authority = some authority := by
  -- the tail is taken apart in the way it is read: fragment, query, path
  have wholeTail := cut_append_marked '#' tail.toList
  have noMark : '#' ∉ (Text.cut '#' tail.toList).1 := Text.notMem_cut
  generalize (Text.cut '#' tail.toList).1 = front at wholeTail noMark
  generalize (Text.cut '#' tail.toList).2.map String.ofList = fragment at wholeTail
  have wholeFront := cut_append_marked '?' front
  have noQuery : '?' ∉ (Text.cut '?' front).1 := Text.notMem_cut
  generalize (Text.cut '?' front).1 = path at wholeFront noQuery
  generalize (Text.cut '?' front).2.map String.ofList = query at wholeFront
  subst wholeFront
  have leads : path = [] ∨ path.head? = some '/' := by
    cases path with
    | nil => exact .inl rfl
    | cons first more =>
        have begins : first = '/' ∨ first = '?' ∨ first = '#' := by
          apply follows.first
          simp [← wholeTail]
        rcases begins with rfl | rfl | rfl
        · exact .inr rfl
        · simp at noQuery
        · simp at noMark
  have absent (c : Char) (special : c = '/' ∨ c = '?' ∨ c = '#') : c ∉ authority.toList := by
    intro member
    have written := allowed c member
    rcases special with rfl | rfl | rfl <;> cases written
  refine ⟨⟨some scheme, .hierarchical (some authority) (String.ofList path) query, fragment⟩,
    ?_, rfl, rfl⟩
  have head : '?' ∉ '/' :: '/' :: authority.toList ++ path := by
    simp [absent '?', noQuery]
  have body : readBody true ('/' :: '/' :: authority.toList ++ path ++ marked ['?'] query) =
      .hierarchical (some authority) (String.ofList path) query := by
    rw [readBody_of_slash head (fun _ => rfl)]
    exact readHierarchy_of_authority (absent '/' (by simp)) leads query
  have text : scheme ++ "://" ++ authority ++ tail = String.ofList (scheme.toList ++
      ':' :: ('/' :: '/' :: authority.toList ++ path ++ marked ['?'] query) ++
        marked ['#'] fragment) := by
    simp [← String.toList_inj, ← wholeTail]
  rw [text, parse_withScheme valid, body, String.ofList_toList]
  · simpa [absent '#'] using noMark
  · intro c written
    have places : c = '/' ∨ c ∈ authority.toList ∨ c ∈ tail.toList := by
      simp only [← wholeTail, List.mem_append, List.mem_cons, or_assoc] at written ⊢
      tauto
    rcases places with rfl | inAuthority | behind
    · rfl
    · have written := allowed c inAuthority
      simp_all [isAuthorityChar]
    · exact follows.allowed c behind

end Uri

namespace DataRule

variable {rule : DataRule} {uri : Uri} {host wanted : String} {mimeType : Option String}

/-- Without an asterisk at its front a host stands for itself alone. -/
theorem acceptsHost_of_ne (plain : wanted.toList.head? ≠ some '*') (other : wanted ≠ host) :
    acceptsHost wanted host = false := by
  rw [acceptsHost]
  split
  · rename_i ending asterisk
    simp [asterisk] at plain
  · simpa using other.symm

theorem matchHost_of_ne (given : wanted ∈ rule.host) (plain : wanted.toList.head? ≠ some '*')
    (found : uri.host = some host) (other : wanted ≠ host) : rule.matchHost uri = .error .data := by
  rw [Option.mem_def] at given
  simp [matchHost, given, found, acceptsHost_of_ne plain other]

/-- Hosts are for rules with a scheme. -/
theorem scheme_ne_none_of_validate (valid : rule.validate = .ok ()) (given : wanted ∈ rule.host) :
    rule.scheme ≠ none := by
  intro noScheme
  rw [Option.mem_def] at given
  have faultless : rule.fault? = none := validate_eq_ok_iff.1 valid
  simp [fault?, noScheme, given] at faultless

/-- A mismatch of the host is one of the whole rule, if the rule comes to compare hosts. -/
theorem matchData_of_matchHost (mismatch : rule.matchHost uri = .error .data)
    (looks : rule.scheme = none →
      ∃ scheme ∈ uri.scheme, scheme ∉ [Uri.contentScheme, Uri.fileScheme]) :
    rule.matchData mimeType (some uri) = .error .data := by
  have refused : rule.matchUri (some uri) = .error .data := by
    cases declared : rule.scheme with
    | none =>
        rcases looks declared with ⟨scheme, found, foreign⟩
        rw [Option.mem_def] at found
        simpa [matchUri, declared, found] using foreign
    | some scheme => simp [matchUri, declared, mismatch]
  simp [matchData, refused]

end DataRule

namespace Uri

variable {endpoint : Endpoint} {scheme tail : String}

/-- Whatever the user information looks like, the host and the port of a URI are those that its
authority was composed of. So a rule for another host, without an asterisk, does not match. Only a
rule without a scheme, which is not valid, takes local data without a look at the host. -/
theorem endpoint_is_told (valid : isScheme scheme.toList = true) (proper : endpoint.IsProper)
    (follows : FollowsAuthority tail.toList) :
    ∃ uri, parse (scheme ++ "://" ++ endpoint.text ++ tail) = .ok uri ∧
      uri.host = some endpoint.host ∧ uri.port = endpoint.port.map UInt16.toNat ∧
      ∀ rule : DataRule, ∀ wanted ∈ rule.host, wanted.toList.head? ≠ some '*' →
        wanted ≠ endpoint.host → rule.matchHost uri = .error .data ∧
          (rule.validate = .ok () ∨ rule.scheme ≠ none ∨
              scheme ∉ [contentScheme, fileScheme] →
            ∀ mimeType, rule.matchData mimeType (some uri) = .error .data) := by
  rcases exists_parse_authority valid proper.allowed follows with ⟨uri, read, schemed, composed⟩
  rcases proper.host_and_port composed with ⟨host, port⟩
  refine ⟨uri, read, host, port, ?_⟩
  intro rule wanted given plain other
  have mismatch := DataRule.matchHost_of_ne given plain host other
  refine ⟨mismatch, ?_⟩
  intro looks mimeType
  apply DataRule.matchData_of_matchHost mismatch
  intro noScheme
  rcases looks with sound | declared | foreign
  · exact absurd noScheme (DataRule.scheme_ne_none_of_validate sound given)
  · exact absurd noScheme declared
  · exact ⟨scheme, schemed, foreign⟩

/-- An endpoint that looks like another one up to its last at sign. -/
def disguised : Endpoint := ⟨some "good.com:80", "evil.com", some 8443⟩

theorem disguised_is_told : isScheme "https".toList = true ∧ disguised.IsProper ∧
    FollowsAuthority "/a".toList ∧
    ∃ uri, parse "https://good.com:80@evil.com:8443/a" = .ok uri ∧ uri.host = some "evil.com" ∧
      uri.port = some 8443 ∧
      ∀ mimeType, (DataRule.https "good.com").matchData mimeType (some uri) = .error .data := by
  have valid : isScheme "https".toList = true := by
    decide
  have proper : disguised.IsProper := by
    refine ⟨?_, .name (by decide) (by decide), List.all_eq_true.1 (by decide)⟩
    rintro _ ⟨⟩
    exact List.all_eq_true.1 (by decide)
  have follows : FollowsAuthority "/a".toList := by
    have allowed : "/a".toList.any isForbidden = false := by
      decide
    refine ⟨?_, by simpa using allowed⟩
    rintro _ ⟨⟩
    exact .inl rfl
  rcases endpoint_is_told valid proper follows with ⟨uri, read, host, port, others⟩
  refine ⟨valid, proper, follows, uri, read, host, port, ?_⟩
  exact (others (.https "good.com") "good.com" rfl (by decide) (by decide)).2 (.inl rfl)

/-- A rule with a host but no scheme, which is not valid. -/
def mailAnywhere : DataRule := { DataRule.ofType "text/plain" with host := some "mail" }

/-- A rule without a scheme takes content of every host, even if it names another one. -/
theorem mailAnywhere_takes_notes : (⟨none, "notes", none⟩ : Endpoint).IsProper ∧
    ∃ uri, parse "content://notes/1" = .ok uri ∧ uri.host = some "notes" ∧
      mailAnywhere.host = some "mail" ∧
      mailAnywhere.matchData (some "text/plain") (some uri) = .ok .type ∧
      mailAnywhere.validate = .error .dataHostWithoutScheme := by
  have proper : (⟨none, "notes", none⟩ : Endpoint).IsProper :=
    ⟨by rintro _ ⟨⟩, .name (by decide) (by decide), List.all_eq_true.1 (by decide)⟩
  exact ⟨proper, _, rfl, rfl, rfl, rfl, rfl⟩

end Uri

end IntentRouting
