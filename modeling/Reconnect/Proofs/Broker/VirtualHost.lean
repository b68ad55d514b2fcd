import Reconnect.Broker.Profile
import Reconnect.Proofs.Endpoint

/-!
# Naming a virtual host in an address

The address that is made for a broker names the virtual host in its path. Only slashes are escaped
there, and percent decoding reads what is left as it stands (`percentDecode?_hostPath`). So the
virtual host comes back from the path exactly if it holds no question mark, which would begin the
query, and no percent sign before two hexadecimal digits, which would be read as one byte
(`namedHost?_uri`). The virtual hosts `%41` and `A` have the same place in a broker.
-/

namespace Reconnect.Broker

open Text

/-- The virtual host and the query that an address names: what percent decoding reads from the path
before the first question mark, and what stands behind it. -/
def namedHost? (address : String) : Option (String × String) := do
  let parts ← AddressParts.ofAddress? address
  let (path, query) ← Uri.splitAt? '?' parts.path.toList
  let host ← percentDecode? (String.ofList path)
  return (host, String.ofList query)

/-- A virtual host that stands for itself in the path of an address, but for its slashes. -/
structure Embeddable (virtualHost : String) : Prop where
  noQuery : '?' ∉ virtualHost.toList
  unescaped : Unescaped virtualHost.toList

instance (virtualHost : String) : Decidable (Embeddable virtualHost) :=
  decidable_of_iff ('?' ∉ virtualHost.toList ∧ Unescaped virtualHost.toList)
    ⟨fun h => ⟨h.1, h.2⟩, fun h => ⟨h.noQuery, h.unescaped⟩⟩

/-! ## Slashes in a path -/

/-- How a character of a virtual host stands in a path. -/
def escapeSlash (c : Char) : List Char := if c = '/' then ['%', '2', 'f'] else [c]

variable {c : Char} {cs : List Char}

theorem escapeSlash_of_ne (hc : c ≠ '/') : escapeSlash c = [c] := if_neg hc

theorem flatMap_escapeSlash_cons_of_ne (hc : c ≠ '/') (cs : List Char) :
    (c :: cs).flatMap escapeSlash = c :: cs.flatMap escapeSlash := by
  rw [List.flatMap_cons, escapeSlash_of_ne hc, List.singleton_append]

theorem ne_slash_of_hexValue? {n : Nat} (h : hexValue? c = some n) : c ≠ '/' := by
  rintro rfl
  cases h

/-- Escaping slashes neither makes nor breaks an escape. -/
theorem hexPair?_flatMap_escapeSlash (cs : List Char) :
    hexPair? (cs.flatMap escapeSlash) = hexPair? cs := by
  match cs with
  | [] => rfl
  | [x] =>
    by_cases hx : x = '/'
    case pos =>
      subst hx
      rfl
    case neg => rw [flatMap_escapeSlash_cons_of_ne hx, List.flatMap_nil]
  | x :: y :: more =>
    by_cases hx : x = '/'
    case pos =>
      subst hx
      rfl
    case neg =>
      rw [flatMap_escapeSlash_cons_of_ne hx]
      by_cases hy : y = '/'
      case pos =>
        subst hy
        have hpercent : hexValue? '%' = none := rfl
        have hslash : hexValue? '/' = none := rfl
        simp [escapeSlash, hexPair?, hpercent, hslash]
      case neg =>
        rw [flatMap_escapeSlash_cons_of_ne hy]
        rfl

/-- Percent decoding undoes the escaping of slashes. -/
theorem percentBytes_flatMap_escapeSlash (cs : List Char) :
    percentBytes (cs.flatMap escapeSlash) = percentBytes cs := by
  fun_induction percentBytes cs with
  | case1 => rfl
  | case2 h l more x y hlow hhigh ih =>
    -- the digits of an escape are no slashes, so the escape stands as before
    rw [flatMap_escapeSlash_cons_of_ne (by decide),
      flatMap_escapeSlash_cons_of_ne (ne_slash_of_hexValue? hhigh),
      flatMap_escapeSlash_cons_of_ne (ne_slash_of_hexValue? hlow)]
    have hpair : hexPair? (h :: l :: more.flatMap escapeSlash) = some (x * 16 + y) := by
      rw [hexPair?, hhigh, hlow]
    rw [percentBytes_of_hexPair hpair]
    exact congrArg _ ih
  | case3 h l more hnone ih =>
    -- a percent sign that began no escape still begins none
    have hpair : hexPair? (h :: l :: more) = none := by
      rw [hexPair?]
      split
      case h_1 x y hx hy => exact absurd hy (hnone x y hx)
      case h_2 => rfl
    rw [flatMap_escapeSlash_cons_of_ne (by decide),
      percentBytes_of_no_hexPair ((hexPair?_flatMap_escapeSlash _).trans hpair), ih]
  | case4 c rest hshort ih =>
    by_cases hslash : c = '/'
    case pos =>
      -- the escape of a slash stands for the one byte of a slash
      subst hslash
      have hpair : hexPair? ('2' :: 'f' :: rest.flatMap escapeSlash) = some 47 := rfl
      exact (percentBytes_of_hexPair hpair).trans (congrArg (47 :: ·) ih)
    case neg =>
      rw [flatMap_escapeSlash_cons_of_ne hslash]
      by_cases hpercent : c = '%'
      case neg => rw [percentBytes_cons hpercent, ih]
      case pos =>
        have hpair : hexPair? rest = none := hexPair?_of_short fun h l more => hshort h l more hpercent
        rw [hpercent, percentBytes_of_no_hexPair ((hexPair?_flatMap_escapeSlash _).trans hpair), ih]
        rfl

theorem mem_flatMap_escapeSlash (hc : c ∉ ['%', '2', 'f']) (hslash : c ≠ '/') :
    c ∈ cs.flatMap escapeSlash ↔ c ∈ cs := by
  rw [List.mem_flatMap]
  constructor
  · rintro ⟨d, hd, hmem⟩
    rw [escapeSlash] at hmem
    split at hmem
    case isTrue => exact absurd hmem hc
    case isFalse => exact List.mem_singleton.1 hmem ▸ hd
  · intro hmem
    exact ⟨c, hmem, by rw [escapeSlash_of_ne hslash]; exact List.mem_singleton_self c⟩

/-! ## The path of a virtual host -/

variable {virtualHost : String}

theorem toList_hostPath (h : virtualHost ≠ "/") :
    (hostPath virtualHost).toList = virtualHost.toList.flatMap escapeSlash := by
  rw [hostPath, if_neg h, String.toList_ofList]
  rfl

/-- The path of a virtual host is read as the virtual host itself would be. -/
theorem percentDecode?_hostPath (h : virtualHost ≠ "/") :
    percentDecode? (hostPath virtualHost) = percentDecode? virtualHost := by
  rw [percentDecode?, percentDecode?, toList_hostPath h, percentBytes_flatMap_escapeSlash]

theorem question_mem_hostPath_iff (h : virtualHost ≠ "/") :
    '?' ∈ (hostPath virtualHost).toList ↔ '?' ∈ virtualHost.toList := by
  rw [toList_hostPath h]
  exact mem_flatMap_escapeSlash (by decide) (by decide)

/-! ## The address of a broker -/

/-- The query of the address of a broker. -/
def heartbeatQuery (p : Profile) : String := "heartbeat=" ++ toString (p.heartbeat / 1000)

/-- The query begins at the only question mark that the virtual host does not bring along. -/
theorem question_not_mem_heartbeatQuery (p : Profile) : '?' ∉ (heartbeatQuery p).toList := by
  have hkey : '?' ∉ "heartbeat=".toList := by decide
  have hdigits : (toString (p.heartbeat / 1000)).toList = Nat.toDigits 10 (p.heartbeat / 1000) :=
    Nat.toList_repr
  rw [heartbeatQuery, String.toList_append, List.mem_append, not_or, hdigits]
  exact ⟨hkey, AddressParts.not_mem_toDigits (by decide) _⟩

/-- The address that is made for a broker is that of its endpoint, with the query in its path. -/
theorem uri_of_no_address {p : Profile} (hp : p.address = none) :
    p.uri =
      p.endpoint.uri driverName "amqp" (hostPath p.virtualHost ++ "?" ++ heartbeatQuery p) := by
  have hmark : "?heartbeat=" = "?" ++ "heartbeat=" := rfl
  rw [Profile.uri, hp]
  simp only [Endpoint.uri, heartbeatQuery, hmark]
  split
  case isTrue => rfl
  case isFalse => simp only [Except.map, String.append_assoc]

/-- What the address that is made for a broker is split into. -/
theorem namedHost?_eq {p : Profile} (hp : p.address = none)
    (he : AddressParts.Addressable p.endpoint) :
    ∃ uri, p.uri = .ok uri ∧
      namedHost? uri = (do
        let (path, query) ← Uri.splitAt? '?'
          ((hostPath p.virtualHost).toList ++ '?' :: (heartbeatQuery p).toList)
        let host ← percentDecode? (String.ofList path)
        return (host, String.ofList query)) := by
  obtain ⟨uri, huri, hparts⟩ := AddressParts.ofAddress?_uri he driverName
    (show ':' ∉ "amqp".toList by decide) (hostPath p.virtualHost ++ "?" ++ heartbeatQuery p)
  have hmark : "?".toList = ['?'] := rfl
  refine ⟨uri, (uri_of_no_address hp).trans huri, ?_⟩
  rw [namedHost?, hparts]
  simp only [Option.bind_eq_bind, Option.bind_some, AddressParts.ofEndpoint, String.toList_append,
    hmark, List.append_assoc, List.singleton_append]

/-- Without a question mark, the address names what percent decoding reads from the virtual host. -/
theorem namedHost?_uri_of_noQuery {p : Profile} (hp : p.address = none)
    (he : AddressParts.Addressable p.endpoint) (hroot : p.virtualHost ≠ "/")
    (hquery : '?' ∉ p.virtualHost.toList) :
    ∃ uri, p.uri = .ok uri ∧
      namedHost? uri = (percentDecode? p.virtualHost).map fun host => (host, heartbeatQuery p) := by
  obtain ⟨uri, huri, hnamed⟩ := namedHost?_eq hp he
  refine ⟨uri, huri, hnamed.trans ?_⟩
  have hpath : '?' ∉ (hostPath p.virtualHost).toList :=
    fun hmem => hquery ((question_mem_hostPath_iff hroot).1 hmem)
  rw [Uri.splitAt?_of_mem hpath]
  simp only [Option.bind_eq_bind, Option.bind_some, String.ofList_toList,
    percentDecode?_hostPath hroot]
  cases percentDecode? p.virtualHost <;> rfl

/-- A question mark in the virtual host begins the query too early. -/
theorem namedHost?_uri_ne_of_query {p : Profile} (hp : p.address = none)
    (he : AddressParts.Addressable p.endpoint) (hroot : p.virtualHost ≠ "/")
    (hquery : '?' ∈ p.virtualHost.toList) :
    ∃ uri, p.uri = .ok uri ∧ ∀ host, namedHost? uri ≠ some (host, heartbeatQuery p) := by
  obtain ⟨uri, huri, hnamed⟩ := namedHost?_eq hp he
  refine ⟨uri, huri, fun host hsame => ?_⟩
  obtain ⟨front, behind, hsplit, hfront⟩ :=
    List.eq_append_cons_of_mem ((question_mem_hostPath_iff hroot).2 hquery)
  rw [hnamed, hsplit, List.append_assoc, List.cons_append, Uri.splitAt?_of_mem hfront] at hsame
  simp only [Option.bind_eq_bind, Option.bind_some, Option.bind_eq_some_iff] at hsame
  obtain ⟨host', -, hsame⟩ := hsame
  have hbehind := congrArg (fun named : String × String => named.2.toList) (Option.some.inj hsame)
  -- the query that was meant stands behind a second question mark
  have hmem : '?' ∈ (heartbeatQuery p).toList := by
    rw [← hbehind]
    simp
  exact question_not_mem_heartbeatQuery p hmem

/-- The address that is made for a broker names its virtual host, together with the heartbeat in
whole seconds, exactly if the virtual host is embeddable. -/
theorem namedHost?_uri {p : Profile} (hp : p.address = none)
    (he : AddressParts.Addressable p.endpoint) (hroot : p.virtualHost ≠ "/") :
    ∃ uri, p.uri = .ok uri ∧
      (namedHost? uri = some (p.virtualHost, heartbeatQuery p) ↔ Embeddable p.virtualHost) := by
  by_cases hquery : '?' ∈ p.virtualHost.toList
  case pos =>
    obtain ⟨uri, huri, hne⟩ := namedHost?_uri_ne_of_query hp he hroot hquery
    exact ⟨uri, huri, fun h => absurd h (hne _), fun h => absurd hquery h.noQuery⟩
  case neg =>
    obtain ⟨uri, huri, hnamed⟩ := namedHost?_uri_of_noQuery hp he hroot hquery
    refine ⟨uri, huri, ?_⟩
    have hself : namedHost? uri = some (p.virtualHost, heartbeatQuery p) ↔
        percentDecode? p.virtualHost = some p.virtualHost := by
      simp [hnamed]
    rw [hself, percentDecode?_eq_self_iff]
    exact ⟨fun h => ⟨hquery, h⟩, fun h => h.unescaped⟩

/-- The address that is made for a broker gives back the virtual host, and the heartbeat as its
query, exactly if the virtual host is embeddable. So profiles that differ in nothing but their
embeddable virtual hosts name different ones. -/
theorem virtualHost_faithful {p : Profile} (hp : p.address = none)
    (he : AddressParts.Addressable p.endpoint) (hroot : p.virtualHost ≠ "/") :
    ∃ uri, p.uri = .ok uri ∧
      (namedHost? uri = some (p.virtualHost, heartbeatQuery p) ↔ Embeddable p.virtualHost) ∧
      (Embeddable p.virtualHost → ∀ virtualHost, Embeddable virtualHost → virtualHost ≠ "/" →
        virtualHost ≠ p.virtualHost →
          ∃ uri', ({ p with virtualHost } : Profile).uri = .ok uri' ∧
            (namedHost? uri').map Prod.fst ≠ (namedHost? uri).map Prod.fst) := by
  obtain ⟨uri, huri, hnamed⟩ := namedHost?_uri hp he hroot
  refine ⟨uri, huri, hnamed, ?_⟩
  intro hself virtualHost hother hroot' hne
  obtain ⟨uri', huri', hnamed'⟩ :=
    namedHost?_uri (p := { p with virtualHost }) hp he hroot'
  refine ⟨uri', huri', ?_⟩
  -- each address names its own virtual host, and these differ
  rw [hnamed.2 hself, hnamed'.2 hother]
  exact fun hsame => hne (Option.some.inj hsame)

/-- A slash, a space, a character of two bytes and a percent sign at the end come back. -/
theorem virtualHost_faithful_awkward :
    let p : Profile := { virtualHost := "a/b é%", heartbeat := 30999 }
    p.address = none ∧ AddressParts.Addressable p.endpoint ∧ p.virtualHost ≠ "/" ∧
      Embeddable p.virtualHost ∧
      p.uri = .ok "amqp://127.0.0.1:5672/a%2fb é%?heartbeat=30" ∧
      namedHost? "amqp://127.0.0.1:5672/a%2fb é%?heartbeat=30" =
        some ("a/b é%", "heartbeat=30") ∧
      ∃ uri', ({ p with virtualHost := "a/b" } : Profile).uri = .ok uri' ∧
        (namedHost? uri').map Prod.fst ≠ some "a/b é%" := by
  intro p
  have he : AddressParts.Addressable p.endpoint := ⟨by decide, by decide, by decide⟩
  have hroot : p.virtualHost ≠ "/" := by decide
  have hself : Embeddable p.virtualHost := by decide +kernel
  have hother : Embeddable "a/b" := by decide +kernel
  have hshown : p.uri = .ok "amqp://127.0.0.1:5672/a%2fb é%?heartbeat=30" := by decide +kernel
  obtain ⟨uri, huri, hnamed, hapart⟩ := virtualHost_faithful rfl he hroot
  obtain ⟨uri', huri', hne⟩ := hapart hself "a/b" hother (by decide) (by decide)
  have hfound := hnamed.2 hself
  rw [hfound] at hne
  have hquery : heartbeatQuery p = "heartbeat=30" := by decide +kernel
  rw [Except.ok.inj (huri.symm.trans hshown), hquery] at hfound
  exact ⟨rfl, he, hroot, hself, hshown, hfound, uri', huri', hne⟩

/-- Neither an escape nor a question mark comes back: `%41` is read as `A`, which another profile
names, and `a?b` ends at its question mark. -/
theorem virtualHost_misread :
    let p : Profile := { virtualHost := "%41" }
    p.address = none ∧ AddressParts.Addressable p.endpoint ∧
      p.uri = .ok "amqp://127.0.0.1:5672/%41?heartbeat=20" ∧
      namedHost? "amqp://127.0.0.1:5672/%41?heartbeat=20" = some ("A", "heartbeat=20") ∧
      ({ p with virtualHost := "A" } : Profile).uri =
        .ok "amqp://127.0.0.1:5672/A?heartbeat=20" ∧
      namedHost? "amqp://127.0.0.1:5672/A?heartbeat=20" = some ("A", "heartbeat=20") ∧
      ({ p with virtualHost := "a?b" } : Profile).uri =
        .ok "amqp://127.0.0.1:5672/a?b?heartbeat=20" ∧
      namedHost? "amqp://127.0.0.1:5672/a?b?heartbeat=20" = some ("a", "b?heartbeat=20") := by
  intro p
  have he : AddressParts.Addressable p.endpoint := ⟨by decide, by decide, by decide⟩
  refine ⟨rfl, he, ?_, ?_, ?_, ?_, ?_, ?_⟩
  all_goals decide +kernel

end Reconnect.Broker
