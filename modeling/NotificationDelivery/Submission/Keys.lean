import NotificationDelivery.Service.PostResponse

/-!
# What an idempotency key identifies

Calls of `insertWithOutbox` one after another, on empty tables. The tables compare keys under the
collation of the schema, so a call returns the row of the first call whose key has the same
sort key. `keys_identify_iff` says when that is the row of the first call with the same key.
-/

namespace NotificationDelivery

/-- A call of `insertWithOutbox`, the id it draws, and how its statements end. -/
structure Submission where
  input : Notification
  uuid : String
  calls : CallOutcomes := {}

namespace Submission

def key (submission : Submission) : String := submission.input.idempotencyKey

/-- The row that the call inserts unless its key is known. -/
def row (submission : Submission) : Notification := submission.input.inserted submission.uuid

end Submission

/-- The calls in their order, each with what it returns. -/
def submitAll (collate : String → String) (submissions : List Submission) :
    Action (List (Submission × Notification)) :=
  submissions.mapM fun submission => do
    let saved ← insertWithOutbox collate submission.calls submission.uuid submission.input
    return (submission, saved)

/-- The row of the first call whose key is `key` for the comparison `same`. -/
def firstRow (same : String → String → Bool) (submissions : List Submission) (key : String) :
    Option Notification :=
  (submissions.find? fun submission => same submission.key key).map Submission.row

/-- Equality of keys in the tables. -/
def sameKey (collate : String → String) (first second : String) : Bool :=
  collate first = collate second

/-- Keys identify notifications: two calls return one id if and only if their keys are the same
string, and each call returns the row of the first call with its key. -/
structure Identifies (submissions : List Submission) (answers : List (Submission × Notification)) :
    Prop where
  ids : ∀ a ∈ answers, ∀ b ∈ answers, a.2.id = b.2.id ↔ a.1.key = b.1.key
  rows : ∀ a ∈ answers, firstRow (· = ·) submissions a.1.key = some a.2

variable {collate : String → String} {submissions rest : List Submission} {submission : Submission}
  {answers : List (Submission × Notification)} {s next after : Stores} {key : String}
  {saved : Notification}

/-- The first call with a key, when one more call comes before the others. -/
theorem first_row_cons (same : String → String → Bool) (submission : Submission)
    (rest : List Submission) (key : String) :
    firstRow same (submission :: rest) key =
      if same submission.key key then some submission.row else firstRow same rest key := by
  unfold firstRow
  rw [List.find?_cons]
  cases same submission.key key <;> rfl

/-- The lookups of the calls see the collated key only. -/
theorem find_by_key_congr (db : Database) {first second : String}
    (h : collate first = collate second) :
    db.findByIdempotencyKey collate first = db.findByIdempotencyKey collate second := by
  simp only [Database.findByIdempotencyKey, h]

theorem find_by_key_commit (db : Database) (n : Notification) (key : String) :
    (db.commitInsert n).findByIdempotencyKey collate key =
      (db.findByIdempotencyKey collate key).or
        (if collate n.idempotencyKey = collate key then some n else none) :=
  Table.find_append

/-- What one call returns, and what the lookups of the later calls find. -/
theorem Saves.finds
    (h : Saves collate submission.calls submission.uuid submission.input s saved next)
    (rest : List Submission) :
    (s.database.findByIdempotencyKey collate submission.key).or (some submission.row) = some saved ∧
      ∀ key,
        (next.database.findByIdempotencyKey collate key).or (firstRow (sameKey collate) rest key) =
        (s.database.findByIdempotencyKey collate key).or
          (firstRow (sameKey collate) (submission :: rest) key) := by
  cases h with
  | known existing _ hfind =>
      refine ⟨by rw [Submission.key, hfind]; rfl, fun key => ?_⟩
      rw [first_row_cons]
      by_cases hkey : collate submission.key = collate key
      · rw [← find_by_key_congr s.database hkey, Submission.key, hfind]
        rfl
      · rw [if_neg (by simpa [sameKey] using hkey)]
  | inserted _ hfind _ =>
      refine ⟨by rw [Submission.key, hfind]; rfl, fun key => ?_⟩
      rw [first_row_cons]
      show ((s.database.commitInsert submission.row).findByIdempotencyKey collate key).or _ = _
      rw [find_by_key_commit, Option.or_assoc, show submission.row.idempotencyKey =
        submission.key from rfl]
      by_cases hkey : collate submission.key = collate key
      · rw [if_pos hkey, if_pos (by simpa [sameKey] using hkey), Option.some_or]
      · rw [if_neg hkey, if_neg (by simpa [sameKey] using hkey), Option.none_or]

theorem submit_all_cons (collate : String → String) (submission : Submission)
    (rest : List Submission) : submitAll collate (submission :: rest) = do
      let saved ← insertWithOutbox collate submission.calls submission.uuid submission.input
      let others ← submitAll collate rest
      return (submission, saved) :: others := by
  simp only [submitAll, List.mapM_cons, bind_assoc, pure_bind]

/-- The tables refine the map from sort keys to the rows of the first calls. -/
theorem submit_all_returns (h : (submitAll collate submissions).run s = (.ok answers, after)) :
    answers.map (fun answer => (answer.1, some answer.2)) = submissions.map fun submission =>
      (submission, (s.database.findByIdempotencyKey collate submission.key).or
        (firstRow (sameKey collate) submissions submission.key)) := by
  induction submissions generalizing s answers with
  | nil =>
      cases h
      rfl
  | cons submission rest ih =>
      rcases insert_with_outbox_cases collate submission.calls submission.uuid
          submission.input s with
        ⟨saved, next, hsaves, hfirst⟩ | ⟨_, ex, hfirst⟩
      · obtain ⟨hsaved, hfinds⟩ := hsaves.finds rest
        rw [submit_all_cons, Action.run_bind_ok hfirst] at h
        cases hrest : (submitAll collate rest).run next with
        | mk outcome last =>
            cases outcome with
            | error ex =>
                rw [Action.run_bind_error hrest] at h
                cases h
            | ok others =>
                rw [Action.run_bind_ok hrest] at h
                cases h
                have hself : firstRow (sameKey collate) (submission :: rest) submission.key =
                    some submission.row := by
                  rw [first_row_cons, if_pos (by simp [sameKey])]
                rw [List.map_cons, List.map_cons, ih hrest, hself, hsaved]
                simp only [hfinds]
      · rw [submit_all_cons, Action.run_bind_error hfirst] at h
        cases h

/-- From empty tables each call returns the row of the first call with its sort key. -/
theorem mem_answers (h : (submitAll collate submissions).run {} = (.ok answers, after)) :
    (∀ answer ∈ answers, answer.1 ∈ submissions ∧
      firstRow (sameKey collate) submissions answer.1.key = some answer.2) ∧
    ∀ submission ∈ submissions, ∃ saved, (submission, saved) ∈ answers := by
  have hmap := submit_all_returns h
  constructor
  · intro answer hanswer
    have hmem : (answer.1, some answer.2) ∈ answers.map fun answer => (answer.1, some answer.2) :=
      List.mem_map.mpr ⟨answer, hanswer, rfl⟩
    rw [hmap] at hmem
    obtain ⟨submission, hsubmission, heq⟩ := List.mem_map.mp hmem
    simp only [Prod.mk.injEq] at heq
    obtain ⟨rfl, hrow⟩ := heq
    exact ⟨hsubmission, hrow⟩
  · intro submission hsubmission
    have hmem := List.mem_map_of_mem (f := fun submission : Submission => (submission,
      (({} : Stores).database.findByIdempotencyKey collate submission.key).or
        (firstRow (sameKey collate) submissions submission.key))) hsubmission
    rw [← hmap] at hmem
    obtain ⟨answer, hanswer, heq⟩ := List.mem_map.mp hmem
    obtain rfl := congrArg Prod.fst heq
    exact ⟨answer.2, hanswer⟩

theorem first_row_congr {same same' : String → String → Bool} {first second : String}
    (h : ∀ submission ∈ submissions, same submission.key first = same' submission.key second) :
    firstRow same submissions first = firstRow same' submissions second :=
  congrArg (Option.map Submission.row) (List.find?_congr h)

/-- The first row is that of a call with the same key. -/
theorem first_row_cases {same : String → String → Bool} {n : Notification}
    (h : firstRow same submissions key = some n) :
    ∃ submission ∈ submissions, same submission.key key = true ∧ submission.row = n := by
  obtain ⟨submission, hfind, hrow⟩ := Option.map_eq_some_iff.mp h
  exact ⟨submission, List.mem_of_find?_eq_some hfind, by simpa using List.find?_some hfind, hrow⟩

/-- Keys identify notifications if and only if no two different keys of the calls are equal under
the collation. The calls return, and they draw different ids: `huuids` stands for the primary key,
which refuses an id that is stored, so that the call that drew it would not return. -/
theorem keys_identify_iff (collate : String → String) (submissions : List Submission)
    (huuids : (submissions.map Submission.uuid).Nodup) (answers : List (Submission × Notification))
    (after : Stores) (hrun : (submitAll collate submissions).run {} = (.ok answers, after)) :
    Identifies submissions answers ↔ ∀ a ∈ submissions, ∀ b ∈ submissions,
      collate a.key = collate b.key → a.key = b.key := by
  obtain ⟨hanswers, hall⟩ := mem_answers hrun
  have huuid : ∀ a ∈ submissions, ∀ b ∈ submissions, a.uuid = b.uuid → a = b :=
    fun a ha b hb => List.inj_on_of_nodup_map huuids ha hb
  constructor
  · intro hidentifies a ha b hb hkey
    obtain ⟨n, hn⟩ := hall a ha
    obtain ⟨m, hm⟩ := hall b hb
    have hsame : firstRow (sameKey collate) submissions a.key =
        firstRow (sameKey collate) submissions b.key :=
      first_row_congr fun submission _ => by rw [sameKey, sameKey, hkey]
    have hrow : some n = some m := by rw [← (hanswers _ hn).2, ← (hanswers _ hm).2, hsame]
    exact (hidentifies.ids _ hn _ hm).mp (congrArg Notification.id (Option.some.inj hrow))
  · intro hinjective
    refine ⟨fun a ha b hb => ⟨fun hid => ?_, fun hkey => ?_⟩, fun a ha => ?_⟩
    · obtain ⟨hmema, hrowa⟩ := hanswers a ha
      obtain ⟨hmemb, hrowb⟩ := hanswers b hb
      obtain ⟨x, hx, hkeyx, hrowx⟩ := first_row_cases hrowa
      obtain ⟨y, hy, hkeyy, hrowy⟩ := first_row_cases hrowb
      -- The id of a row is the one that its call has drawn.
      obtain rfl : x = y := by
        refine huuid x hx y hy ?_
        rw [← hrowx, ← hrowy] at hid
        exact hid
      simp only [sameKey, decide_eq_true_eq] at hkeyx hkeyy
      exact hinjective a.1 hmema b.1 hmemb (hkeyx.symm.trans hkeyy)
    · have hrow : some a.2 = some b.2 := by rw [← (hanswers a ha).2, ← (hanswers b hb).2, hkey]
      rw [Option.some.inj hrow]
    · obtain ⟨hmem, hrow⟩ := hanswers a ha
      rw [← hrow]
      refine first_row_congr fun submission hsubmission => ?_
      have hiff : submission.key = a.1.key ↔ collate submission.key = collate a.1.key :=
        ⟨congrArg collate, hinjective submission hsubmission a.1 hmem⟩
      simp only [sameKey, hiff]

/-- The collation of the schema on ASCII text: letters are compared without case, and spaces at the
end are ignored. -/
def unicodeCi (key : String) : String :=
  String.ofList ((key.toList.reverse.dropWhile (· = ' ')).reverse.map Char.toLower)

/-- A call with the given key. -/
def submissionOf (key recipient uuid : String) : Submission where
  input := { idempotencyKey := key, channel := .email, recipient, subject := "", body := "hi" }
  uuid := uuid

/-- The answers of calls that return, told by the recipients of the rows. -/
theorem exists_answers (collate : String → String) (submissions : List Submission)
    (recipients : List String)
    (h : ((submitAll collate submissions).run {}).1.toOption.map
      (fun answers => answers.map (·.2.recipient)) = some recipients) :
    ∃ answers after, (submitAll collate submissions).run {} = (.ok answers, after) ∧
      answers.map (·.2.recipient) = recipients := by
  cases hrun : (submitAll collate submissions).run {} with
  | mk outcome after =>
      rw [hrun] at h
      cases outcome with
      | error ex => exact absurd h (by simp [Except.toOption])
      | ok answers => exact ⟨answers, after, rfl, Option.some.inj h⟩

/-- The second call is a repetition of the first one. -/
def distinctKeys : List Submission :=
  [submissionOf "order-1" "a@b.c" "a", submissionOf "order-1" "a@b.c" "b",
   submissionOf "order-2" "d@e.f" "c"]

theorem keys_identify_distinct :
    ∃ answers after, (submitAll unicodeCi distinctKeys).run {} = (.ok answers, after) ∧
      Identifies distinctKeys answers := by
  obtain ⟨answers, after, hrun, _⟩ := exists_answers unicodeCi distinctKeys
    ["a@b.c", "a@b.c", "d@e.f"] (by decide +kernel)
  exact ⟨answers, after, hrun, (keys_identify_iff unicodeCi distinctKeys (by decide +kernel) answers
    after hrun).mpr (by decide +kernel)⟩

/-- Two clients whose keys differ in case. -/
def sameUpToCase : List Submission :=
  [submissionOf "order-1" "a@b.c" "a", submissionOf "ORDER-1" "d@e.f" "b"]

/-- The second client gets the notification of the first one. -/
theorem keys_confused :
    ∃ answers after, (submitAll unicodeCi sameUpToCase).run {} = (.ok answers, after) ∧
      answers.map (·.2.recipient) = ["a@b.c", "a@b.c"] ∧ ¬ Identifies sameUpToCase answers := by
  obtain ⟨answers, after, hrun, hrecipients⟩ := exists_answers unicodeCi sameUpToCase
    ["a@b.c", "a@b.c"] (by decide +kernel)
  refine ⟨answers, after, hrun, hrecipients, fun hidentifies => ?_⟩
  obtain ⟨hanswers, hall⟩ := mem_answers hrun
  obtain ⟨n, hn⟩ := hall (submissionOf "order-1" "a@b.c" "a") (by simp [sameUpToCase])
  obtain ⟨m, hm⟩ := hall (submissionOf "ORDER-1" "d@e.f" "b") (by simp [sameUpToCase])
  have hsame : firstRow (sameKey unicodeCi) sameUpToCase "order-1" =
      firstRow (sameKey unicodeCi) sameUpToCase "ORDER-1" := by decide +kernel
  have hrow : some n = some m := (hanswers _ hn).2.symm.trans (hsame.trans (hanswers _ hm).2)
  have hkey : "order-1" = "ORDER-1" :=
    (hidentifies.ids _ hn _ hm).mp (congrArg Notification.id (Option.some.inj hrow))
  exact absurd hkey (by decide)

end NotificationDelivery
