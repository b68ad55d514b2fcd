import Reconnect.Proofs.Json.Removal
import Reconnect.Proofs.Text.Utf8
import Reconnect.Settings.Files

/-!
# Settings of which a part is left out

The document of some settings may lose any fields and whole sections before it is read. A field that
is left out is then read as its default (`Settings.merged`). Every field has its default twice: by
itself, for an object without it, and in its record, for an object without the whole section. The
two agree, record by record (`Timeouts.ofJson?_without` and the like), so that the settings of what
remains are those that were written, with the defaults of the records where the cut was made
(`Settings.ofText?_without`). A file of what remains gives these settings if they are acceptable
(`Settings.merged_of_partial`).

The fields hold natural numbers of any size, words of a fixed width in a file. So all of this is
about settings whose numbers fit (`Settings.Fits`).
-/

namespace Reconnect

open Json

/-! ## Settings within their words -/

/-- Every duration fits into a word of 64 bits. -/
structure Timeouts.Fits (t : Timeouts) : Prop where
  connection : t.connection < UInt64.size
  connectionRetryWait : t.connectionRetryWait < UInt64.size
  read : t.read < UInt64.size
  write : t.write < UInt64.size
  operationRetryWait : t.operationRetryWait < UInt64.size

/-- Every duration fits into a word of 64 bits. -/
structure Cache.LockSettings.Fits (s : Cache.LockSettings) : Prop where
  acquireTimeout : s.acquireTimeout < UInt64.size
  retryWaitMin : s.retryWaitMin < UInt64.size
  retryWaitMax : s.retryWaitMax < UInt64.size
  ttl : s.ttl < UInt64.size

/-- Every number fits into its word. -/
structure BrokerSettings.Fits (s : BrokerSettings) : Prop where
  port : s.port < UInt16.size
  heartbeatSeconds : s.heartbeatSeconds < UInt16.size
  declareTimeout : s.declareTimeout < UInt64.size
  prefetchCount : s.prefetchCount < UInt16.size
  timeouts : s.timeouts.Fits

/-- Every number fits into its word. -/
structure CacheSettings.Fits (s : CacheSettings) : Prop where
  port : s.port < UInt16.size
  database : s.database < UInt8.size
  lock : s.lock.Fits
  timeouts : s.timeouts.Fits

/-- Every number fits into its word. -/
structure DocumentSettings.Fits (s : DocumentSettings) : Prop where
  port : s.port < UInt16.size
  timeouts : s.timeouts.Fits

/-- Every number fits into its word. -/
structure Settings.Fits (s : Settings) : Prop where
  broker : s.broker.Fits
  cache : s.cache.Fits
  documents : s.documents.Fits

/-! ## Settings merged with the defaults -/

/-- The durations that a cut keeps, with the defaults of the others. -/
def Timeouts.merged (cut : Cut) (t : Timeouts) : Timeouts :=
  let d : Timeouts := {}
  { connection := cut.choose "connection_timeout_ms" d.connection t.connection
    connectionRetryWait :=
      cut.choose "connection_retry_wait_ms" d.connectionRetryWait t.connectionRetryWait
    read := cut.choose "read_timeout_ms" d.read t.read
    write := cut.choose "write_timeout_ms" d.write t.write
    operationRetryWait :=
      cut.choose "operation_retry_wait_ms" d.operationRetryWait t.operationRetryWait }

/-- The timing of locks that a cut keeps, with the defaults of the rest. -/
def Cache.LockSettings.merged (cut : Cut) (s : Cache.LockSettings) : Cache.LockSettings :=
  let d : Cache.LockSettings := {}
  { acquireTimeout := cut.choose "acquire_timeout_ms" d.acquireTimeout s.acquireTimeout
    retryWaitMin := cut.choose "retry_wait_min_ms" d.retryWaitMin s.retryWaitMin
    retryWaitMax := cut.choose "retry_wait_max_ms" d.retryWaitMax s.retryWaitMax
    ttl := cut.choose "ttl_ms" d.ttl s.ttl }

/-- The broker settings that a cut keeps, with the defaults of the rest. -/
def BrokerSettings.merged (cut : Cut) (s : BrokerSettings) : BrokerSettings :=
  let d : BrokerSettings := {}
  { host := cut.choose "host" d.host s.host
    port := cut.choose "port" d.port s.port
    username := cut.choose "username" d.username s.username
    password := cut.choose "password" d.password s.password
    uri := cut.choose "uri" d.uri s.uri
    virtualHost := cut.choose "vhost" d.virtualHost s.virtualHost
    heartbeatSeconds := cut.choose "heartbeat_seconds" d.heartbeatSeconds s.heartbeatSeconds
    declareTimeout := cut.choose "declare_timeout_ms" d.declareTimeout s.declareTimeout
    prefetchCount := cut.choose "prefetch_count" d.prefetchCount s.prefetchCount
    timeouts := cut.choose "timeouts" d.timeouts (s.timeouts.merged (cut.under "timeouts")) }

/-- The cache store settings that a cut keeps, with the defaults of the rest. -/
def CacheSettings.merged (cut : Cut) (s : CacheSettings) : CacheSettings :=
  let d : CacheSettings := {}
  { host := cut.choose "host" d.host s.host
    port := cut.choose "port" d.port s.port
    username := cut.choose "username" d.username s.username
    password := cut.choose "password" d.password s.password
    uri := cut.choose "uri" d.uri s.uri
    database := cut.choose "database" d.database s.database
    lock := cut.choose "lock" d.lock (s.lock.merged (cut.under "lock"))
    timeouts := cut.choose "timeouts" d.timeouts (s.timeouts.merged (cut.under "timeouts")) }

/-- The document store settings that a cut keeps, with the defaults of the rest. -/
def DocumentSettings.merged (cut : Cut) (s : DocumentSettings) : DocumentSettings :=
  let d : DocumentSettings := {}
  { host := cut.choose "host" d.host s.host
    port := cut.choose "port" d.port s.port
    username := cut.choose "username" d.username s.username
    password := cut.choose "password" d.password s.password
    uri := cut.choose "uri" d.uri s.uri
    appName := cut.choose "app_name" d.appName s.appName
    timeouts := cut.choose "timeouts" d.timeouts (s.timeouts.merged (cut.under "timeouts")) }

/-- The settings that a cut keeps, with the defaults of the rest. -/
def Settings.merged (cut : Cut) (s : Settings) : Settings :=
  let d : Settings := {}
  { broker := cut.choose "rabbitmq" d.broker (s.broker.merged (cut.under "rabbitmq"))
    cache := cut.choose "redis" d.cache (s.cache.merged (cut.under "redis"))
    documents := cut.choose "mongodb" d.documents (s.documents.merged (cut.under "mongodb")) }

/-! ## Spelling -/

section

variable (v : Json)

@[simp] theorem Timeouts.ofJson?_respelled :
    Timeouts.ofJson? v.respelled = Timeouts.ofJson? v := by
  rw [Timeouts.ofJson?, fields?_respelled, Timeouts.ofJson?]
  cases fields? timeoutFields v with
  | none => rfl
  | some field => simp [word64?, fieldOr_respelled]

@[simp] theorem Cache.LockSettings.ofJson?_respelled :
    Cache.LockSettings.ofJson? v.respelled = Cache.LockSettings.ofJson? v := by
  rw [Cache.LockSettings.ofJson?, fields?_respelled, Cache.LockSettings.ofJson?]
  cases fields? lockFields v with
  | none => rfl
  | some field => simp [word64?, fieldOr_respelled]

@[simp] theorem BrokerSettings.ofJson?_respelled :
    BrokerSettings.ofJson? v.respelled = BrokerSettings.ofJson? v := by
  rw [BrokerSettings.ofJson?, fields?_respelled, BrokerSettings.ofJson?]
  cases fields? brokerFields v with
  | none => rfl
  | some field => simp [word64?, word16?, fieldOr_respelled]

@[simp] theorem CacheSettings.ofJson?_respelled :
    CacheSettings.ofJson? v.respelled = CacheSettings.ofJson? v := by
  rw [CacheSettings.ofJson?, fields?_respelled, CacheSettings.ofJson?]
  cases fields? cacheFields v with
  | none => rfl
  | some field => simp [word8?, word16?, fieldOr_respelled]

@[simp] theorem DocumentSettings.ofJson?_respelled :
    DocumentSettings.ofJson? v.respelled = DocumentSettings.ofJson? v := by
  rw [DocumentSettings.ofJson?, fields?_respelled, DocumentSettings.ofJson?]
  cases fields? documentFields v with
  | none => rfl
  | some field => simp [word16?, fieldOr_respelled]

@[simp] theorem Settings.ofJson?_respelled :
    Settings.ofJson? v.respelled = Settings.ofJson? v := by
  rw [Settings.ofJson?, fields?_respelled, Settings.ofJson?]
  cases fields? sectionFields v with
  | none => rfl
  | some field => simp [fieldOr_respelled]

end

/-! ## Records of which a part is left out -/

theorem lookup_optionalField (n name : String) (value : Option String) :
    (optionalField name value).lookup n = if n = name then value.map ofText else none := by
  cases value with
  | none => exact (ite_self none).symm
  | some s =>
    show [(name, ofText s)].lookup n = _
    by_cases hn : n = name
    · subst hn
      rw [List.lookup_cons_self, if_pos rfl, Option.map_some]
    · rw [List.lookup_cons, beq_false_of_ne hn, if_neg hn]
      rfl

theorem names_optionalField (name : String) (value : Option String) :
    ((optionalField name value).map Prod.fst).Sublist [name] := by
  cases value with
  | none => exact List.nil_sublist _
  | some s => exact List.Sublist.refl _

theorem names_addressFields (host : String) (port : Nat) (username password : String)
    (uri : Option String) :
    ((addressFields host port username password uri).map Prod.fst).Sublist
      ["host", "port", "username", "password", "uri"] := by
  rw [addressFields, List.map_append]
  exact (List.Sublist.refl _).append (names_optionalField "uri" uri)

section

variable (cut : Cut)

theorem Timeouts.ofJson?_without {t : Timeouts} (ht : t.Fits) :
    Timeouts.ofJson? (t.toJson.without cut) = some (t.merged cut) := by
  rw [Timeouts.ofJson?, Timeouts.toJson, fields?_without (by simp [timeoutFields]) (by decide)]
  simp only [Option.bind_eq_bind, Option.bind_some]
  rw [fieldOr_word64_kept "connection_timeout_ms" ht.connection,
    fieldOr_word64_kept "connection_retry_wait_ms" ht.connectionRetryWait,
    fieldOr_word64_kept "read_timeout_ms" ht.read, fieldOr_word64_kept "write_timeout_ms" ht.write,
    fieldOr_word64_kept "operation_retry_wait_ms" ht.operationRetryWait]
  · -- the defaults of the fields are those of the record
    rfl
  all_goals simp [List.lookup_cons]

theorem Cache.LockSettings.ofJson?_without {s : Cache.LockSettings} (hs : s.Fits) :
    Cache.LockSettings.ofJson? (s.toJson.without cut) = some (s.merged cut) := by
  rw [Cache.LockSettings.ofJson?, Cache.LockSettings.toJson,
    fields?_without (by simp [lockFields]) (by decide)]
  simp only [Option.bind_eq_bind, Option.bind_some]
  rw [fieldOr_word64_kept "acquire_timeout_ms" hs.acquireTimeout,
    fieldOr_word64_kept "retry_wait_min_ms" hs.retryWaitMin,
    fieldOr_word64_kept "retry_wait_max_ms" hs.retryWaitMax,
    fieldOr_word64_kept "ttl_ms" hs.ttl]
  · rfl
  all_goals simp [List.lookup_cons]

theorem BrokerSettings.ofJson?_without {s : BrokerSettings} (hs : s.Fits) :
    BrokerSettings.ofJson? (s.toJson.without cut) = some (s.merged cut) := by
  rw [BrokerSettings.ofJson?, BrokerSettings.toJson, fields?_without _ (by decide)]
  · simp only [Option.bind_eq_bind, Option.bind_some]
    rw [fieldOr_text_kept "host" s.host, fieldOr_word16_kept "port" hs.port,
      fieldOr_text_kept "username" s.username, fieldOr_text_kept "password" s.password,
      fieldOr_optionalText_kept "uri" s.uri, fieldOr_text_kept "vhost" s.virtualHost,
      fieldOr_word16_kept "heartbeat_seconds" hs.heartbeatSeconds,
      fieldOr_word64_kept "declare_timeout_ms" hs.declareTimeout,
      fieldOr_word16_kept "prefetch_count" hs.prefetchCount,
      fieldOr_kept "timeouts" (Timeouts.ofJson?_without (cut.under "timeouts") hs.timeouts)]
    · rfl
    all_goals simp [addressFields, List.lookup_append, List.lookup_cons, lookup_optionalField]
  · rw [List.map_append]
    exact (names_addressFields ..).append (List.Sublist.refl _)

theorem CacheSettings.ofJson?_without {s : CacheSettings} (hs : s.Fits) :
    CacheSettings.ofJson? (s.toJson.without cut) = some (s.merged cut) := by
  rw [CacheSettings.ofJson?, CacheSettings.toJson, fields?_without _ (by decide)]
  · simp only [Option.bind_eq_bind, Option.bind_some]
    rw [fieldOr_text_kept "host" s.host, fieldOr_word16_kept "port" hs.port,
      fieldOr_text_kept "username" s.username, fieldOr_text_kept "password" s.password,
      fieldOr_optionalText_kept "uri" s.uri, fieldOr_word8_kept "database" hs.database,
      fieldOr_kept "lock" (Cache.LockSettings.ofJson?_without (cut.under "lock") hs.lock),
      fieldOr_kept "timeouts" (Timeouts.ofJson?_without (cut.under "timeouts") hs.timeouts)]
    · rfl
    all_goals simp [addressFields, List.lookup_append, List.lookup_cons, lookup_optionalField]
  · rw [List.map_append]
    exact (names_addressFields ..).append (List.Sublist.refl _)

theorem DocumentSettings.ofJson?_without {s : DocumentSettings} (hs : s.Fits) :
    DocumentSettings.ofJson? (s.toJson.without cut) = some (s.merged cut) := by
  rw [DocumentSettings.ofJson?, DocumentSettings.toJson, fields?_without _ (by decide)]
  · simp only [Option.bind_eq_bind, Option.bind_some]
    rw [fieldOr_text_kept "host" s.host, fieldOr_word16_kept "port" hs.port,
      fieldOr_text_kept "username" s.username, fieldOr_text_kept "password" s.password,
      fieldOr_optionalText_kept "uri" s.uri, fieldOr_optionalText_kept "app_name" s.appName,
      fieldOr_kept "timeouts" (Timeouts.ofJson?_without (cut.under "timeouts") hs.timeouts)]
    · rfl
    all_goals simp [addressFields, List.lookup_append, List.lookup_cons, lookup_optionalField]
  · rw [List.map_append, List.map_append]
    exact ((names_addressFields ..).append (names_optionalField ..)).append (List.Sublist.refl _)

theorem Settings.ofJson?_without {s : Settings} (hs : s.Fits) :
    Settings.ofJson? (s.toJson.without cut) = some (s.merged cut) := by
  rw [Settings.ofJson?, Settings.toJson, fields?_without (by simp [sectionFields]) (by decide)]
  simp only [Option.bind_eq_bind, Option.bind_some]
  rw [fieldOr_kept "rabbitmq" (BrokerSettings.ofJson?_without (cut.under "rabbitmq") hs.broker),
    fieldOr_kept "redis" (CacheSettings.ofJson?_without (cut.under "redis") hs.cache),
    fieldOr_kept "mongodb" (DocumentSettings.ofJson?_without (cut.under "mongodb") hs.documents)]
  · rfl
  all_goals simp [List.lookup_cons]

end

/-! ## Documents of settings -/

theorem plain_optionalField {name : String} {value : Option String} :
    ∀ f ∈ optionalField name value, Plain f.2 := by
  intro f hf
  obtain ⟨s, -, rfl⟩ := Option.map_eq_some_iff.1 (Option.mem_toList.1 hf)
  exact .text s

theorem plain_addressFields {host : String} {port : Nat} {username password : String}
    {uri : Option String} : ∀ f ∈ addressFields host port username password uri, Plain f.2 := by
  apply List.forall_mem_append.2 ⟨?_, plain_optionalField⟩
  simp [Plain.text, Plain.number]

theorem Timeouts.plain_toJson (t : Timeouts) : Plain t.toJson := by
  apply Plain.fields
  simp [Plain.number]

theorem Cache.LockSettings.plain_toJson (s : Cache.LockSettings) : Plain s.toJson := by
  apply Plain.fields
  simp [Plain.number]

theorem BrokerSettings.plain_toJson (s : BrokerSettings) : Plain s.toJson := by
  apply Plain.fields
  apply List.forall_mem_append.2 ⟨plain_addressFields, ?_⟩
  simp [Plain.text, Plain.number, s.timeouts.plain_toJson]

theorem CacheSettings.plain_toJson (s : CacheSettings) : Plain s.toJson := by
  apply Plain.fields
  apply List.forall_mem_append.2 ⟨plain_addressFields, ?_⟩
  simp [Plain.number, s.lock.plain_toJson, s.timeouts.plain_toJson]

theorem DocumentSettings.plain_toJson (s : DocumentSettings) : Plain s.toJson := by
  apply Plain.fields
  apply List.forall_mem_append.2
    ⟨List.forall_mem_append.2 ⟨plain_addressFields, plain_optionalField⟩, ?_⟩
  simp [s.timeouts.plain_toJson]

theorem Settings.plain_toJson (s : Settings) : Plain s.toJson := by
  apply Plain.fields
  simp [s.broker.plain_toJson, s.cache.plain_toJson, s.documents.plain_toJson]

/-! ## Files -/

namespace Settings

/-- Settings that name a broker and whose bounds of the lock's pause are in order. -/
def Acceptable (s : Settings) : Prop :=
  (s.broker.uri.isSome = true ∨ s.broker.host ≠ "") ∧
    s.cache.lock.retryWaitMin ≤ s.cache.lock.retryWaitMax

instance (s : Settings) : Decidable s.Acceptable := inferInstanceAs (Decidable (_ ∧ _))

theorem nameless_iff {s : Settings} : (s.broker.uri.isNone && s.broker.host == "") = true ↔
    ¬ (s.broker.uri.isSome = true ∨ s.broker.host ≠ "") := by
  cases s.broker.uri <;> simp

theorem check_of_acceptable {s : Settings} (hs : s.Acceptable) : s.check = .ok s := by
  obtain ⟨hbroker, hlock⟩ := hs
  rw [check, if_neg fun h => nameless_iff.1 h hbroker, if_neg (Nat.not_lt.2 hlock)]

theorem check_of_not_acceptable {s : Settings} (hs : ¬ s.Acceptable) :
    ∃ e, s.check = .error e := by
  rw [check]
  split
  case isTrue => exact ⟨_, rfl⟩
  case isFalse hnamed =>
    split
    case isTrue => exact ⟨_, rfl⟩
    case isFalse hlock =>
      apply absurd _ hs
      exact ⟨not_not.1 fun h => hnamed (nameless_iff.2 h), Nat.not_lt.1 hlock⟩

theorem ofText?_without (cut : Cut) {s : Settings} (hs : s.Fits) :
    ofText? (Json.write (s.toJson.without cut)) = some (s.merged cut) := by
  rw [ofText?, read?_write (s.plain_toJson.without cut), Option.bind_some, ofJson?_respelled,
    ofJson?_without cut hs]

theorem merged_of_keeps {cut : Cut} (hcut : ∀ path, cut path = false) (s : Settings) :
    s.merged cut = s := by
  simp [merged, BrokerSettings.merged, CacheSettings.merged, DocumentSettings.merged,
    Timeouts.merged, Cache.LockSettings.merged, Cut.choose, Cut.under, hcut]

end Settings

/-- A file of which a part is left out gives the merged settings, or why they are not accepted. -/
theorem Folder.settingsAt_without {f : Folder} {path : String} {cut : Cut} {s : Settings}
    (hs : s.Fits)
    (hfile : f.read? path = some (Text.utf8 (Json.write (s.toJson.without cut)))) :
    f.settingsAt path = (s.merged cut).check := by
  rw [settingsAt, hfile, Option.bind_some, Text.ofUtf8?_utf8]
  show Settings.read _ = _
  rw [Settings.read, Settings.ofText?_without cut hs]

/-- Whatever fields and sections are left out of the document of some settings, what is read from
the rest has their value where a field is kept and the default where it is left out. A file of the
rest gives these merged settings if they name a broker and the bounds of the lock's pause are in
order, and an error otherwise. With nothing left out the settings come back. -/
theorem Settings.merged_of_partial {s : Settings} (hs : s.Fits) (cut : Cut) :
    ofText? (Json.write (s.toJson.without cut)) = some (s.merged cut) ∧
      (∀ (f : Folder) (path : String),
        f.read? path = some (Text.utf8 (Json.write (s.toJson.without cut))) →
          (f.settingsAt path = .ok (s.merged cut) ↔ (s.merged cut).Acceptable) ∧
            (¬ (s.merged cut).Acceptable → ∃ e, f.settingsAt path = .error e)) ∧
      ((∀ path, cut path = false) →
        s.merged cut = s ∧ Json.write (s.toJson.without cut) = s.text) := by
  refine ⟨ofText?_without cut hs, fun f path hfile => ?_, fun hcut => ?_⟩
  · rw [Folder.settingsAt_without hs hfile]
    refine ⟨⟨fun hok => ?_, check_of_acceptable⟩, check_of_not_acceptable⟩
    by_contra hnot
    obtain ⟨e, he⟩ := check_of_not_acceptable hnot
    rw [he] at hok
    cases hok
  · rw [s.plain_toJson.without_of_keeps hcut]
    exact ⟨merged_of_keeps hcut s, rfl⟩

/-- Settings whose broker is named by an address with a quote and a control character, and whose
bounds of the lock's pause are out of order. -/
def unevenSettings : Settings where
  broker := {
    host := "", uri := some "amqp://\x01\"é", heartbeatSeconds := 65535
    timeouts := { read := 18446744073709551615 } }
  cache := { lock := { retryWaitMin := 500, retryWaitMax := 50, ttl := 1 } }
  documents := { appName := some "" }

/-- Leaves out the lower bound, the durations of the broker and the section of the document store.
-/
def smoothingCut : Cut := fun path =>
  path ∈ [["redis", "lock", "retry_wait_min_ms"], ["rabbitmq", "timeouts"], ["mongodb"]]

/-- A folder with one file, of the settings that the cut keeps. -/
def smoothedFolder : Folder :=
  ⟨[(["s"], .file (Text.utf8 (Json.write (unevenSettings.toJson.without smoothingCut))))]⟩

theorem Settings.merged_smoothed : unevenSettings.Fits ∧ smoothedFolder.settingsAt "s" = .ok {
    broker := { host := "", uri := some "amqp://\x01\"é", heartbeatSeconds := 65535 }
    cache := { lock := { retryWaitMin := 10, retryWaitMax := 50, ttl := 1 } } } := by
  have hfits : unevenSettings.Fits :=
    ⟨⟨by decide, by decide, by decide, by decide,
        by decide, by decide, by decide, by decide, by decide⟩,
      ⟨by decide, by decide, ⟨by decide, by decide, by decide, by decide⟩,
        by decide, by decide, by decide, by decide, by decide⟩,
      ⟨by decide, by decide, by decide, by decide, by decide, by decide⟩⟩
  have hsplit : "s".splitOn "/" = ["s"] := by
    rw [String.splitOn, if_neg (by decide), String.splitOnAux, if_neg (by decide),
      if_neg (by decide), String.splitOnAux, if_pos (by decide)]
    decide
  have hfile : smoothedFolder.read? "s" =
      some (Text.utf8 (Json.write (unevenSettings.toJson.without smoothingCut))) := by
    have hpieces : Folder.pieces "s" = ["s"] := by
      rw [Folder.pieces, hsplit]
      decide +kernel
    have hpath : Folder.isPath "s" = true := by
      rw [Folder.isPath, hsplit]
      decide +kernel
    have hend : Folder.endsInFolder "s" = false := by
      rw [Folder.endsInFolder, hsplit]
      decide
    simp [smoothedFolder, Folder.read?, Folder.at?, hpath, hpieces, hend, Folder.follow,
      Folder.isFolder, Folder.entry?]
  have hmerged := (merged_of_partial hfits smoothingCut).2.1 smoothedFolder "s" hfile
  exact ⟨hfits, hmerged.1.2 (by decide)⟩

end Reconnect
