import NotificationDelivery.Json

/-!
# The configuration

After `include/notification/Config.hpp`. C++ `int` fields are integers here.
-/

namespace NotificationDelivery

/-- The fields of `Config` with the initializers of the class as defaults. -/
structure Config where
  dbHost : String := "127.0.0.1"
  dbPort : Int := 33060
  dbUser : String := "notification_app"
  dbPassword : String := ""
  dbSchema : String := "notification_db"
  dbPoolSize : Int := 8
  amqpHost : String := "127.0.0.1"
  amqpPort : Int := 5672
  amqpUser : String := "guest"
  amqpPassword : String := "guest"
  amqpVhost : String := "/"
  workersPerChannel : Int := 4
  maxRetries : Int := 3
  retryDelaysMs : List Int := [5000, 15000, 60000]
  cbFailureThreshold : Int := 5
  cbOpenDurationMs : Int := 30000
  httpAddress : String := "0.0.0.0"
  httpPort : Int := 8080
  httpThreads : Int := 4
  deriving DecidableEq, Repr

namespace Config

/-- The fields that `loadFromFile` reads from the parsed file, with the delays that it has read;
each missing one keeps its default, and nothing compares one field with another. -/
def fromFields (j : Json) (delays : Except Exn (List Int)) : Except Exn Config := do
  let c : Config := {}
  let dbHost ← j.value Json.getString "dbHost" c.dbHost
  let dbPort ← j.value Json.getInt "dbPort" c.dbPort
  let dbUser ← j.value Json.getString "dbUser" c.dbUser
  let dbPassword ← j.value Json.getString "dbPassword" c.dbPassword
  let dbSchema ← j.value Json.getString "dbSchema" c.dbSchema
  let dbPoolSize ← j.value Json.getInt "dbPoolSize" c.dbPoolSize
  let amqpHost ← j.value Json.getString "amqpHost" c.amqpHost
  let amqpPort ← j.value Json.getInt "amqpPort" c.amqpPort
  let amqpUser ← j.value Json.getString "amqpUser" c.amqpUser
  let amqpPassword ← j.value Json.getString "amqpPassword" c.amqpPassword
  let amqpVhost ← j.value Json.getString "amqpVhost" c.amqpVhost
  let workersPerChannel ← j.value Json.getInt "workersPerChannel" c.workersPerChannel
  let maxRetries ← j.value Json.getInt "maxRetries" c.maxRetries
  let retryDelaysMs ← delays
  let cbFailureThreshold ← j.value Json.getInt "cbFailureThreshold" c.cbFailureThreshold
  let cbOpenDurationMs ← j.value Json.getInt "cbOpenDurationMs" c.cbOpenDurationMs
  let httpAddress ← j.value Json.getString "httpAddress" c.httpAddress
  let httpPort ← j.value Json.getInt "httpPort" c.httpPort
  let httpThreads ← j.value Json.getInt "httpThreads" c.httpThreads
  pure { dbHost, dbPort, dbUser, dbPassword, dbSchema, dbPoolSize, amqpHost, amqpPort, amqpUser,
         amqpPassword, amqpVhost, workersPerChannel, maxRetries, retryDelaysMs, cbFailureThreshold,
         cbOpenDurationMs, httpAddress, httpPort := httpPort % 65536, httpThreads }

/-- `loadFromFile` on the parsed file. -/
def fromJson (j : Json) : Except Exn Config :=
  fromFields j
    (if j.contains "retryDelaysMs" then j.at' "retryDelaysMs" >>= Json.getInts
    else pure ({} : Config).retryDelaysMs)

/-- `Config::loadFromFile`. The file is missing, not JSON, or a JSON value. -/
def loadFromFile (path : String) (file : Option (Except Exn Json)) : Except Exn Config :=
  match file with
  | none => .error (.ofText ("could not open config file: " ++ path))
  | some contents => contents >>= fromJson

/-- Every number of a configuration is one of its C++ type. -/
structure InRange (c : Config) : Prop where
  dbPort : Json.IsInt c.dbPort
  dbPoolSize : Json.IsInt c.dbPoolSize
  amqpPort : Json.IsInt c.amqpPort
  workersPerChannel : Json.IsInt c.workersPerChannel
  maxRetries : Json.IsInt c.maxRetries
  retryDelaysMs : ∀ delay ∈ c.retryDelaysMs, Json.IsInt delay
  cbFailureThreshold : Json.IsInt c.cbFailureThreshold
  cbOpenDurationMs : Json.IsInt c.cbOpenDurationMs
  httpPort : 0 ≤ c.httpPort ∧ c.httpPort < 2 ^ 16
  httpThreads : Json.IsInt c.httpThreads

/-- The delays are numbers that were read, one by one. -/
theorem is_int_of_get_ints {j : Json} {delays : List Int} (h : j.getInts = .ok delays) :
    ∀ delay ∈ delays, Json.IsInt delay := by
  cases j with
  | arr items =>
      have hitems : items.mapM Json.getInt = .ok delays := h
      clear h
      induction items generalizing delays with
      | nil =>
          obtain rfl := Except.ok.inj hitems
          simp
      | cons item rest ih =>
          simp only [List.mapM_cons, Exn.bind_eq_ok] at hitems
          obtain ⟨first, hfirst, others, hothers, hdelays⟩ := hitems
          obtain rfl := Except.ok.inj hdelays
          intro delay hdelay
          rcases List.mem_cons.mp hdelay with rfl | hdelay
          · exact Json.is_int_of_get_int hfirst
          · exact ih hothers delay hdelay
  | _ => exact absurd h (by simp [Json.getInts])

/-- The fields, once the delays are known. -/
theorem in_range_of_fields {j : Json} {delays : Except Exn (List Int)} {c : Config}
    (hdelays : ∀ list, delays = .ok list → ∀ delay ∈ list, Json.IsInt delay)
    (h : fromFields j delays = .ok c) : c.InRange := by
  simp only [fromFields, Exn.bind_eq_ok] at h
  obtain ⟨_, -, _, hdbPort, _, -, _, -, _, -, _, hdbPoolSize, _, -, _, hamqpPort, _, -, _, -,
    _, -, _, hworkers, _, hretries, list, hlist, _, hthreshold, _, hopen, _, -, _, -, _,
    hthreads, hc⟩ := h
  obtain rfl := Except.ok.inj hc
  exact {
    dbPort := Json.is_int_of_value (by decide) hdbPort
    dbPoolSize := Json.is_int_of_value (by decide) hdbPoolSize
    amqpPort := Json.is_int_of_value (by decide) hamqpPort
    workersPerChannel := Json.is_int_of_value (by decide) hworkers
    maxRetries := Json.is_int_of_value (by decide) hretries
    retryDelaysMs := hdelays list hlist
    cbFailureThreshold := Json.is_int_of_value (by decide) hthreshold
    cbOpenDurationMs := Json.is_int_of_value (by decide) hopen
    httpPort := by
      show 0 ≤ _ % 65536 ∧ _ % 65536 < 2 ^ 16
      omega
    httpThreads := Json.is_int_of_value (by decide) hthreads }

/-- Whatever the file holds: the numbers that `loadFromFile` accepts are of their C++ types. -/
theorem in_range_of_load {path : String} {file : Option (Except Exn Json)} {c : Config}
    (h : loadFromFile path file = .ok c) : c.InRange := by
  cases file with
  | none => exact absurd h (by simp [loadFromFile])
  | some contents =>
      obtain ⟨j, -, hfields⟩ := Exn.bind_eq_ok.mp h
      refine in_range_of_fields (fun list hlist => ?_) hfields
      split at hlist
      · obtain ⟨item, -, hitem⟩ := Exn.bind_eq_ok.mp hlist
        exact is_int_of_get_ints hitem
      · obtain rfl := Except.ok.inj hlist
        decide

example : loadFromFile "config.json" (some (.ok (.obj []))) = .ok {} := rfl

end Config

end NotificationDelivery
