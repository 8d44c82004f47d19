import Wakaama.Core.BootstrapQuery
import Wakaama.Core.Proofs.RegisterWrite

/-!
# When a bootstrap request is complete

`utils_stringCopy` never tells that a buffer is too small: it returns how much of the string it has
copied. A query that does not fit is sent as far as it goes.
-/

namespace Wakaama

theorem utilsStrncpy_length (length : Nat) (str : List UInt8) :
    (utilsStrncpy length str).length = min str.length (length - 1) := by
  unfold utilsStrncpy
  split <;> rw [List.length_take] <;> omega

theorem intOfSize_eq_neg_one_iff (n : Nat) : intOfSize n = -1 ↔ n % 2 ^ 32 = 2 ^ 32 - 1 := by
  unfold intOfSize
  rw [Int.bmod_def]
  split <;> omega

theorem copiesOrRefuses_iff (length : Nat) (str : List UInt8) :
    CopiesOrRefuses length str ↔
      (str.length < length ∨ str = []) ∧ str.length < 2 ^ 31 ∨
        min str.length (length - 1) % 2 ^ 32 = 2 ^ 32 - 1 := by
  have hcopied := utilsStrncpy_length length str
  unfold CopiesOrRefuses utilsStringCopy
  rw [hcopied, intOfSize_eq_neg_one_iff]
  refine or_congr_left ?_
  constructor
  · intro ⟨hwhole, hlength⟩
    rw [hwhole] at hcopied
    have hrange := (intOfSize_range (min str.length (length - 1))).2
    rw [← List.length_eq_zero_iff]
    omega
  · intro ⟨hfits, hsmall⟩
    have hall : min str.length (length - 1) = str.length := by
      rw [← List.length_eq_zero_iff] at hfits
      omega
    rw [hall, intOfSize_small hsmall]
    refine ⟨?_, rfl⟩
    unfold utilsStrncpy at hcopied ⊢
    split at hcopied <;> rw [List.length_take] at hcopied
    · rw [if_pos ‹_›]
      exact List.take_of_length_le (by omega)
    · rw [if_neg ‹_›]
      exact List.take_of_length_le (by omega)

variable {content : PctContent} {endpointName text : List UInt8}

theorem writeString_free (str : List UInt8) (h : text.length < prvQueryBufferLength) :
    ∃ text', writeString prvQueryBufferLength str text = .ok text' ∧
      text'.length < prvQueryBufferLength := by
  have hcopied := utilsStrncpy_length (prvQueryBufferLength - text.length) str
  unfold prvQueryBufferLength at h hcopied ⊢
  have hsmall : (utilsStrncpy (200 - text.length) str).length < 2 ^ 31 := by omega
  rw [writeString, roomBehind_le (by omega), ok_bind]
  simp only [intOfSize_small hsmall]
  rw [if_neg (by omega)]
  refine ⟨_, rfl, ?_⟩
  rw [Int.toNat_natCast, List.take_length, List.length_append]
  omega

theorem bootstrapQuery_free (content : PctContent) (endpointName : List UInt8) :
    ∃ query, bootstrapQuery content endpointName = .ok query ∧
      query.length < prvQueryBufferLength := by
  obtain ⟨starter, hstarter, hfree⟩ := @writeString_free [] (queryStarter :: QueryKey.name.text)
    (by decide)
  obtain ⟨named, hnamed, hfree⟩ := writeString_free endpointName hfree
  obtain ⟨keyed, hkeyed, hfree⟩ := writeString_free (queryDelimiter :: queryPct) hfree
  obtain ⟨query, hquery, hfree⟩ := writeString_free content.text hfree
  refine ⟨query, ?_, hfree⟩
  rw [bootstrapQuery, hstarter, ok_bind, hnamed, ok_bind, hkeyed, ok_bind, hquery]

theorem bootstrapQuery_complete
    (h : (completeQuery content endpointName).length < prvQueryBufferLength) :
    bootstrapQuery content endpointName = .ok (completeQuery content endpointName) := by
  have hlength : (completeQuery content endpointName).length =
      endpointName.length + content.text.length + 9 := by
    simp only [completeQuery, List.length_append, List.length_cons, queryPct, QueryKey.text,
      List.length_nil]
    omega
  rw [hlength, prvQueryBufferLength] at h
  unfold bootstrapQuery prvQueryBufferLength
  rw [writeString_fits (by norm_num) (by decide), ok_bind,
    writeString_fits (by norm_num) (by simp [QueryKey.text]; omega), ok_bind,
    writeString_fits (by norm_num) (by simp [QueryKey.text, queryPct]; omega), ok_bind,
    writeString_fits (by norm_num) (by simp [QueryKey.text, queryPct]; omega)]
  rfl

theorem requestWithQuery_server (query : List UInt8) (env : BootstrapEnv) (server : Lwm2mServer) :
    (requestWithQuery (.ok query) env server).1 =
      prvRequestBootstrap { env with queryFits := true } server := by
  unfold requestWithQuery prvRequestBootstrap
  dsimp only
  cases server.sessionH.or env.connect with
  | none => rfl
  | some sessionH => cases env.transactionNew <;> cases env.transactionSend <;> rfl

theorem requestWithQuery_sent (query : List UInt8) (env : BootstrapEnv) (server : Lwm2mServer) :
    (requestWithQuery (.ok query) env server).2 =
      if (server.sessionH.or env.connect).isSome && env.transactionNew then some query
      else none := by
  unfold requestWithQuery
  dsimp only
  cases server.sessionH.or env.connect with
  | none => rfl
  | some sessionH => cases env.transactionNew <;> cases env.transactionSend <;> rfl

theorem requestWithQuery_unsent (query : List UInt8) {env : BootstrapEnv} {server : Lwm2mServer}
    (h : (requestWithQuery (.ok query) env server).2 = none) :
    (requestWithQuery (.ok query) env server).1.status = .bsFailing ∨
      server.sessionH.or env.connect = none := by
  rw [requestWithQuery_sent] at h
  rw [requestWithQuery_server, prvRequestBootstrap, if_neg (by simp)]
  cases hsession : server.sessionH.or env.connect with
  | none => exact Or.inr rfl
  | some sessionH =>
    rw [hsession] at h
    cases hnew : env.transactionNew with
    | false => exact Or.inl rfl
    | true => simp [hnew] at h

/-- A platform that opens sessions and makes transactions. -/
def willingPlatform : BootstrapEnv :=
  { queryFits := true, connect := some 1, transactionNew := true, transactionSend := true }

theorem requestComplete_iff (content : PctContent) (endpointName : List UInt8)
    (server : Lwm2mServer) :
    (∀ env, RequestComplete content endpointName env server) ↔
      (completeQuery content endpointName).length < prvQueryBufferLength := by
  obtain ⟨query, hquery, hfree⟩ := bootstrapQuery_free content endpointName
  have hresult : ∀ env, prvRequestBootstrapQuery content endpointName env server =
      requestWithQuery (.ok query) env server := fun env =>
    congrArg (fun written => requestWithQuery written env server) hquery
  simp only [RequestComplete, hresult]
  constructor
  · intro h
    have hsession : (server.sessionH.or willingPlatform.connect).isSome = true := by
      cases server.sessionH <;> rfl
    have hsent := requestWithQuery_sent query willingPlatform server
    rw [hsession] at hsent
    exact (h willingPlatform).1 query hsent ▸ hfree
  · intro hroom env
    obtain rfl := Except.ok.inj (hquery.symm.trans (bootstrapQuery_complete hroom))
    refine ⟨fun sent hsent => ?_, fun hunsent => requestWithQuery_unsent _ hunsent⟩
    have hbuffer := (requestWithQuery_sent _ env server).symm.trans hsent
    split at hbuffer
    · exact (Option.some.inj hbuffer).symm
    · nomatch hbuffer

/-- `utils_stringCopy` does what its comment says exactly where the string fits the buffer with its
NUL and its length an `int`, or where the length that is copied is -1 as an `int`; and a request is
complete exactly where its query fits the buffer. -/
theorem bootstrapRequest_complete_iff (length : Nat) (str : List UInt8) (content : PctContent)
    (endpointName : List UInt8) (server : Lwm2mServer) :
    (CopiesOrRefuses length str ↔
      (str.length < length ∨ str = []) ∧ str.length < 2 ^ 31 ∨
        min str.length (length - 1) % 2 ^ 32 = 2 ^ 32 - 1) ∧
    ((∀ env, RequestComplete content endpointName env server) ↔
      endpointName.length + content.text.length + 9 < 200) := by
  refine ⟨copiesOrRefuses_iff length str, (requestComplete_iff content endpointName server).trans ?_⟩
  simp only [completeQuery, List.length_append, List.length_cons, queryPct, QueryKey.text,
    List.length_nil, prvQueryBufferLength]
  omega

/-- Of a string of five bytes a buffer of three holds two, which is told as success; and of a name
of 196 letters the last one is cut off, with what is to follow. -/
theorem longEndpointName_cut :
    ¬ CopiesOrRefuses 3 [104, 101, 108, 108, 111] ∧ ∀ server, ¬ ∀ env,
      RequestComplete .senmlCbor (List.replicate 196 97) env server := by
  constructor
  · intro h
    rcases (copiesOrRefuses_iff _ _).mp h with hfits | hwraps
    · exact absurd hfits.1 (by decide)
    · exact absurd hwraps (by decide)
  · intro server h
    have hroom := (requestComplete_iff _ _ server).mp h
    rw [completeQuery, List.length_append, List.length_append, List.length_append,
      List.length_replicate] at hroom
    exact absurd hroom (by decide)

end Wakaama
