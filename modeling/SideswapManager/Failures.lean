import SideswapManager.Effects

namespace SideswapManager.Failures

-- Every error exit of the handlers comes before their first write. The one handler that can
-- change the state on an error is GetQuote, through the server events its wait drains.
theorem failed_commands_write_nothing (lib : Lib) (w : World) :
    (∀ userNote ans err, (newAddress w userNote ans).2 = .error err → Quiet w (newAddress w userNote ans).1) ∧
    (∀ recipients reply err, (createTx lib w recipients reply).2 = .error err →
      Quiet w (createTx lib w recipients reply).1) ∧
    (∀ req ans err, (newPeg w req ans).2 = .error err → Quiet w (newPeg w req ans).1) ∧
    (∀ reply err, (getMonitoredTxs w reply).2 = .error err → Quiet w (getMonitoredTxs w reply).1) ∧
    (∀ req ans w' err, sendTx lib w req ans = some (w',.error err) →
      (err = .noCreatedTx ∨ ∃ text, err = .utxoCheckFailed text) → Quiet w w') ∧
    (∀ req ans w' err, acceptQuote lib w req ans = some (w',.error err) →
      (err = .noQuote ∨ err = .quoteExpired) → Quiet w w') ∧
    (∀ req ans err, (getQuote lib w req ans).2 = .error err →
      (getQuote lib w req ans).1.db = w.db ∧ EventsOnly w.data (getQuote lib w req ans).1.data) := by
  refine ⟨fun userNote ans err failed => ?_,fun recipients reply err failed => ?_,fun req ans err failed => ?_,
    fun reply _ _ => getMonitoredTxs_quiet w reply,fun req ans w' err ran early => ?_,fun req ans w' err ran early => ?_,
    fun req ans err failed => ?_⟩
  · rcases newAddress_cases w userNote ans with ⟨quiet,_⟩ | ⟨_,_,_,_,_,_,_,ok⟩
    · exact quiet
    · cases ok.symm.trans failed
  · rcases createTx_cases lib w recipients reply with ⟨quiet,_⟩ | ⟨_,_,_,_,ok⟩
    · exact quiet
    · cases ok.symm.trans failed
  · rcases newPeg_cases w req ans with ⟨quiet,_⟩ | ⟨_,_,_,_,_,_,ok⟩
    · exact quiet
    · cases ok.symm.trans failed
  · rcases sendTx_cases lib w ran with ⟨quiet,_⟩ | ⟨_,_,_,⟨_,late⟩ | ⟨_,_,late⟩⟩
    · exact quiet
    all_goals cases late <;> rcases early with early | ⟨_,early⟩ <;> cases early
  · rcases acceptQuote_cases lib w ran with ⟨quiet,_⟩ | ⟨_,_,_,_,_,⟨_,late⟩ | late⟩
    · exact quiet
    all_goals cases late <;> rcases early with early | early <;> cases early
  · obtain ⟨db,d,only,⟨data,_⟩ | ⟨_,_,_,_,ok⟩⟩ := getQuote_cases lib w req ans
    · exact ⟨db,data ▸ only⟩
    · cases ok.symm.trans failed

theorem failed_commands_write_nothing_on_unknown_txid :
    ∃ w, run Lib.constant (World.start Db.empty) [(.wallet (.utxos ⟨[⟨1,0,5,100⟩]⟩),0),
        (.command (.createTx [] (.reply (.ok ⟨[⟨⟨1,0⟩⟩],[]⟩))),0)] = some w ∧
      w.data.createdTxs.keys = [0] ∧
      sendTx Lib.constant w ⟨7,none⟩ ⟨.ok (),.ok 7,.reply (.ok 7)⟩ = some (w,.error .noCreatedTx) ∧
      (∀ userNote ans err, (newAddress w userNote ans).2 = .error err → Quiet w (newAddress w userNote ans).1) ∧
      (∀ recipients reply err, (createTx Lib.constant w recipients reply).2 = .error err →
        Quiet w (createTx Lib.constant w recipients reply).1) ∧
      (∀ req ans err, (newPeg w req ans).2 = .error err → Quiet w (newPeg w req ans).1) ∧
      (∀ reply err, (getMonitoredTxs w reply).2 = .error err → Quiet w (getMonitoredTxs w reply).1) ∧
      (∀ req ans w' err, sendTx Lib.constant w req ans = some (w',.error err) →
        (err = .noCreatedTx ∨ ∃ text, err = .utxoCheckFailed text) → Quiet w w') ∧
      (∀ req ans w' err, acceptQuote Lib.constant w req ans = some (w',.error err) →
        (err = .noQuote ∨ err = .quoteExpired) → Quiet w w') ∧
      (∀ req ans err, (getQuote Lib.constant w req ans).2 = .error err →
        (getQuote Lib.constant w req ans).1.db = w.db ∧ EventsOnly w.data (getQuote Lib.constant w req ans).1.data) :=
  have ran : run Lib.constant (World.start Db.empty) [(.wallet (.utxos ⟨[⟨1,0,5,100⟩]⟩),0),
      (.command (.createTx [] (.reply (.ok ⟨[⟨⟨1,0⟩⟩],[]⟩))),0)] = some _ := rfl
  ⟨_,ran,rfl,rfl,failed_commands_write_nothing Lib.constant _⟩

end SideswapManager.Failures
