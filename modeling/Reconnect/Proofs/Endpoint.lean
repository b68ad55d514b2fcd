import Mathlib.Data.List.TakeWhile
import Reconnect.Endpoint
import Reconnect.Proofs.Text.Percent
import Reconnect.Uri

/-!
# Taking an address apart

The address of an endpoint says all of it: its credentials, its host and its port, and the path that
was asked for (`AddressParts.ofAddress?`). Percent coding keeps the separators of an address out of
the credentials, whatever characters these have, so each part ends where its separator first stands.
-/

namespace Reconnect

/-- The parts of an address. A user or a password that is absent is empty. -/
structure AddressParts where
  scheme : String
  username : String
  password : String
  host : String
  port : Nat
  path : String
  deriving DecidableEq

namespace AddressParts

/-- What stands before and behind the first colon that is followed by two slashes. -/
def splitAtMark? : List Char → Option (List Char × List Char)
  | [] => none
  | ':' :: '/' :: '/' :: rest => some ([], rest)
  | c :: cs => (splitAtMark? cs).map fun r => (c :: r.1, r.2)

/-- What stands before and behind the at sign of an authority, if there is one. -/
def splitUser (authority : List Char) : List Char × List Char :=
  (Uri.splitAt? '@' authority).getD ([], authority)

/-- What stands before and behind the colon of user information, if there is one. -/
def splitPassword (user : List Char) : List Char × List Char :=
  (Uri.splitAt? ':' user).getD (user, [])

/-- The number that a row of decimal digits stands for. -/
def decimal? (digits : List Char) : Option Nat :=
  if digits ≠ [] ∧ digits.all Char.isDigit = true then some (Nat.ofDigitChars 10 digits 0) else none

/-- The parts between the separators of an address, with user and password decoded. -/
def ofAddress? (address : String) : Option AddressParts := do
  let (scheme, rest) ← splitAtMark? address.toList
  let (authority, path) ← Uri.splitAt? '/' rest
  let (user, place) := splitUser authority
  let (host, digits) ← Uri.splitAt? ':' place
  let port ← decimal? digits
  let username ← Text.percentDecode? (String.ofList (splitPassword user).1)
  let password ← Text.percentDecode? (String.ofList (splitPassword user).2)
  return {
    scheme := String.ofList scheme, username, password, host := String.ofList host, port
    path := String.ofList path }

end AddressParts

namespace Uri

variable {c : Char} {cs front behind : List Char}

theorem splitAt?_of_mem (hc : c ∉ front) :
    splitAt? c (front ++ c :: behind) = some (front, behind) := by
  have hfront : ∀ d ∈ front, decide (d ≠ c) = true := by
    intro d hd
    exact decide_eq_true fun he => hc (he ▸ hd)
  rw [splitAt?, List.dropWhile_append_of_pos hfront, List.takeWhile_append_of_pos hfront]
  simp

theorem splitAt?_of_not_mem (hc : c ∉ cs) : splitAt? c cs = none := by
  have hall : ∀ d ∈ cs, decide (d ≠ c) = true := by
    intro d hd
    exact decide_eq_true fun he => hc (he ▸ hd)
  rw [splitAt?, List.dropWhile_eq_nil_iff.2 hall]

end Uri

namespace AddressParts

open Text

/-- A scheme without a colon ends at the first mark. -/
theorem splitAtMark?_of_scheme {scheme : List Char} (hs : ':' ∉ scheme) (rest : List Char) :
    splitAtMark? (scheme ++ ':' :: '/' :: '/' :: rest) = some (scheme, rest) := by
  induction scheme with
  | nil => rfl
  | cons c scheme ih =>
    rw [List.mem_cons, not_or] at hs
    rw [List.cons_append, splitAtMark?, ih hs.2]
    · rfl
    · rintro more rfl
      exact absurd rfl hs.1

/-- A host that holds no separator, so that it can stand in an address. -/
def IsPlain (host : String) : Prop := ∀ c ∈ host.toList, c ∉ delimiters

instance (host : String) : Decidable (IsPlain host) :=
  List.decidableBAll (· ∉ delimiters) host.toList

theorem not_mem_of_plain {host : String} (h : IsPlain host) {c : Char} (hc : c ∈ delimiters) :
    c ∉ host.toList := fun hmem => h c hmem hc

theorem not_mem_percentEncode_of_mem {c : Char} (hc : c ∈ delimiters) (s : String) :
    c ∉ (percentEncode s).toList := fun hmem => not_mem_percentEncode s c hmem hc

theorem not_mem_toDigits {c : Char} (hc : c ∈ delimiters) (n : Nat) : c ∉ Nat.toDigits 10 n := by
  intro hmem
  have hdigit := Nat.isDigit_of_mem_toDigits (by decide) (by decide) hmem
  have hnone : delimiters.all (!·.isDigit) = true := by decide
  rw [List.all_eq_true] at hnone
  have hc := hnone c hc
  rw [hdigit] at hc
  cases hc

/-- No slash stands in user information. -/
theorem slash_not_mem_userInfo (e : Endpoint) : '/' ∉ e.userInfo.toList := by
  have hcode := fun s => not_mem_percentEncode_of_mem (c := '/') (by decide) s
  rw [Endpoint.userInfo]
  split <;> simp [hcode]

theorem splitUser_of_mem {user : List Char} (hu : '@' ∉ user) (place : List Char) :
    splitUser (user ++ '@' :: place) = (user, place) := by
  rw [splitUser, Uri.splitAt?_of_mem hu]
  rfl

theorem splitUser_of_not_mem {place : List Char} (hp : '@' ∉ place) :
    splitUser place = ([], place) := by
  rw [splitUser, Uri.splitAt?_of_not_mem hp]
  rfl

theorem splitPassword_of_mem {name : List Char} (hn : ':' ∉ name) (secret : List Char) :
    splitPassword (name ++ ':' :: secret) = (name, secret) := by
  rw [splitPassword, Uri.splitAt?_of_mem hn]
  rfl

theorem splitPassword_of_not_mem {name : List Char} (hn : ':' ∉ name) :
    splitPassword name = (name, []) := by
  rw [splitPassword, Uri.splitAt?_of_not_mem hn]
  rfl

/-- User information is found again before the at sign, and its two parts at the colon. -/
theorem splitUser_userInfo (e : Endpoint) {place : List Char} (hplace : '@' ∉ place) :
    ∃ user, splitUser (e.userInfo.toList ++ place) = (user, place) ∧
      splitPassword user = ((percentEncode (e.username.getD "")).toList,
        (percentEncode (e.password.getD "")).toList) := by
  have hat := fun s => not_mem_percentEncode_of_mem (c := '@') (by decide) s
  have hcolon := fun s => not_mem_percentEncode_of_mem (c := ':') (by decide) s
  have hmark : "@".toList = ['@'] := rfl
  have hsecret : ":".toList = [':'] := rfl
  rw [Endpoint.userInfo]
  -- an absent part is found as an empty one
  cases e.username with
  | none =>
    cases e.password with
    | none => exact ⟨[], splitUser_of_not_mem hplace, rfl⟩
    | some pass =>
      refine ⟨':' :: (percentEncode pass).toList, ?_, splitPassword_of_mem List.not_mem_nil _⟩
      have hfound : '@' ∉ ':' :: (percentEncode pass).toList := by simp [hat]
      simpa [hmark, hsecret] using splitUser_of_mem hfound place
  | some user =>
    cases e.password with
    | none =>
      refine ⟨(percentEncode user).toList, ?_, splitPassword_of_not_mem (hcolon user)⟩
      simpa [hmark] using splitUser_of_mem (hat user) place
    | some pass =>
      refine ⟨(percentEncode user).toList ++ ':' :: (percentEncode pass).toList, ?_,
        splitPassword_of_mem (hcolon user) _⟩
      have hfound : '@' ∉ (percentEncode user).toList ++ ':' :: (percentEncode pass).toList := by
        simp [hat]
      simpa [hmark, hsecret] using splitUser_of_mem hfound place

/-- The parts of the address of an endpoint. -/
def ofEndpoint (e : Endpoint) (scheme path : String) : AddressParts where
  scheme := scheme
  username := e.username.getD ""
  password := e.password.getD ""
  host := e.host
  port := e.port
  path := path

/-- An endpoint that has an address, in which its host can be found again. -/
structure Addressable (e : Endpoint) : Prop where
  notBlank : isBlankText e.host = false
  plain : IsPlain e.host
  port : e.port ≠ 0

/-- The host and the port as they stand in an address. -/
def placeOf (e : Endpoint) : List Char := e.host.toList ++ ':' :: Nat.toDigits 10 e.port

theorem not_mem_placeOf {e : Endpoint} (he : Addressable e) {c : Char} (hc : c ∈ delimiters)
    (hne : c ≠ ':') : c ∉ placeOf e := by
  simp [placeOf, not_mem_of_plain he.plain hc, hne, not_mem_toDigits hc]

theorem toList_uri (e : Endpoint) (scheme path : String) :
    (scheme ++ "://" ++ e.userInfo ++ e.host ++ ":" ++ toString e.port ++ "/" ++ path).toList =
      scheme.toList ++ ':' :: '/' :: '/' ::
        (e.userInfo.toList ++ placeOf e ++ '/' :: path.toList) := by
  have hmark : "://".toList = [':', '/', '/'] := rfl
  have hcolon : ":".toList = [':'] := rfl
  have hslash : "/".toList = ['/'] := rfl
  have hport : (toString e.port).toList = Nat.toDigits 10 e.port := Nat.toList_repr
  simp only [String.toList_append, hmark, hcolon, hslash, hport, placeOf, List.append_assoc,
    List.cons_append, List.nil_append]

/-- The address of an endpoint is taken apart into what it was made of. -/
theorem ofAddress?_uri {e : Endpoint} (he : Addressable e) (driver : String) {scheme : String}
    (hs : ':' ∉ scheme.toList) (path : String) :
    ∃ uri, e.uri driver scheme path = .ok uri ∧
      ofAddress? uri = some (ofEndpoint e scheme path) := by
  refine ⟨_, if_neg (by simp [he.notBlank, he.port]), ?_⟩
  have hauthority : '/' ∉ e.userInfo.toList ++ placeOf e := by
    rw [List.mem_append, not_or]
    exact ⟨slash_not_mem_userInfo e, not_mem_placeOf he (by decide) (by decide)⟩
  obtain ⟨user, huser, hparts⟩ :=
    splitUser_userInfo e (not_mem_placeOf he (c := '@') (by decide) (by decide))
  have hhost : Uri.splitAt? ':' (placeOf e) = some (e.host.toList, Nat.toDigits 10 e.port) :=
    Uri.splitAt?_of_mem (not_mem_of_plain he.plain (by decide))
  have hport : decimal? (Nat.toDigits 10 e.port) = some e.port := by
    have hdigits : ∀ c ∈ Nat.toDigits 10 e.port, c.isDigit = true :=
      fun c => Nat.isDigit_of_mem_toDigits (by decide) (by decide)
    rw [decimal?, if_pos ⟨Nat.toDigits_ne_nil, List.all_eq_true.2 hdigits⟩,
      Nat.ofDigitChars_ten_toDigits]
  rw [ofAddress?, toList_uri, splitAtMark?_of_scheme hs]
  simp only [Option.bind_eq_bind, Option.bind_some, Uri.splitAt?_of_mem hauthority, huser, hhost,
    hport, hparts, String.ofList_toList, percentDecode?_percentEncode]
  rfl

theorem getD_credential? (s : String) : (Endpoint.credential? s).getD "" = s := by
  rw [Endpoint.credential?]
  split
  case isTrue h => exact h.symm
  case isFalse h => rfl

/-- Credentials are found again, an empty one as an absent one. -/
theorem ofAddress?_withCredentials {e : Endpoint} (he : Addressable e) (user pass driver : String)
    {scheme : String} (hs : ':' ∉ scheme.toList) (path : String) :
    ∃ uri, (e.withCredentials user pass).uri driver scheme path = .ok uri ∧
      ofAddress? uri = some ⟨scheme, user, pass, e.host, e.port, path⟩ := by
  have he' : Addressable (e.withCredentials user pass) := ⟨he.notBlank, he.plain, he.port⟩
  obtain ⟨uri, huri, hparts⟩ := ofAddress?_uri he' driver hs path
  refine ⟨uri, huri, hparts.trans ?_⟩
  rw [ofEndpoint, Endpoint.withCredentials, getD_credential?, getD_credential?]

end AddressParts

/-- The address of an endpoint gives back the user, the password, the host, the port and the path;
a user or a password that is absent is empty. So endpoints that differ in any of these have
different addresses. -/
theorem address_faithful {e : Endpoint} (he : AddressParts.Addressable e)
    (user pass driver : String) {scheme : String} (hs : ':' ∉ scheme.toList) (path : String) :
    ∃ uri, (e.withCredentials user pass).uri driver scheme path = .ok uri ∧
      AddressParts.ofAddress? uri = some ⟨scheme, user, pass, e.host, e.port, path⟩ ∧
      ∀ (e' : Endpoint) (user' pass' driver' scheme' path' : String),
        AddressParts.Addressable e' → ':' ∉ scheme'.toList →
        (e'.withCredentials user' pass').uri driver' scheme' path' = .ok uri →
          user' = user ∧ pass' = pass ∧ e'.host = e.host ∧ e'.port = e.port ∧ path' = path := by
  obtain ⟨uri, huri, hparts⟩ := AddressParts.ofAddress?_withCredentials he user pass driver hs path
  refine ⟨uri, huri, hparts, ?_⟩
  intro e' user' pass' driver' scheme' path' he' hs' hsame
  obtain ⟨uri', huri', hparts'⟩ :=
    AddressParts.ofAddress?_withCredentials he' user' pass' driver' hs' path'
  -- both addresses are taken apart in the same way
  obtain rfl : uri' = uri := Except.ok.inj (huri'.symm.trans hsame)
  have heq := Option.some.inj (hparts'.symm.trans hparts)
  rw [AddressParts.mk.injEq] at heq
  obtain ⟨-, huser, hpass, hhost, hport, hpath⟩ := heq
  exact ⟨huser, hpass, hhost, hport, hpath⟩

/-- A password of separators, and of characters of several bytes, behind an empty user. -/
theorem address_faithful_awkward :
    let e : Endpoint := ⟨"broker.local", 5672, none, none⟩
    AddressParts.Addressable e ∧ ':' ∉ "amqp".toList ∧
      (e.withCredentials "" "p@ss/w:rd%é€𝄞").uri "rabbitmq" "amqp" "v?@" =
        .ok "amqp://:p%40ss%2Fw%3Ard%25%C3%A9%E2%82%AC%F0%9D%84%9E@broker.local:5672/v?@" ∧
      AddressParts.ofAddress?
        "amqp://:p%40ss%2Fw%3Ard%25%C3%A9%E2%82%AC%F0%9D%84%9E@broker.local:5672/v?@" =
        some ⟨"amqp", "", "p@ss/w:rd%é€𝄞", "broker.local", 5672, "v?@"⟩ := by
  intro e
  have he : AddressParts.Addressable e := ⟨by decide, by decide, by decide⟩
  have hs : ':' ∉ "amqp".toList := by decide
  obtain ⟨uri, huri, hparts, -⟩ := address_faithful he "" "p@ss/w:rd%é€𝄞" "rabbitmq" hs "v?@"
  have hshown : (e.withCredentials "" "p@ss/w:rd%é€𝄞").uri "rabbitmq" "amqp" "v?@" =
      .ok "amqp://:p%40ss%2Fw%3Ard%25%C3%A9%E2%82%AC%F0%9D%84%9E@broker.local:5672/v?@" := by
    decide +kernel
  have hsame := Except.ok.inj (huri.symm.trans hshown)
  rw [hsame] at hparts
  exact ⟨he, hs, hshown, hparts⟩

end Reconnect
