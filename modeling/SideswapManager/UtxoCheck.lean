import SideswapManager.Coordinator

namespace SideswapManager.UtxoCheck

-- Every input of `tx` spends an outpoint of some wallet UTXO.
def Covered (tx : Transaction) (utxoData : UtxoData) : Prop :=
  ∀ input ∈ tx.input, ∃ utxo ∈ utxoData.utxos, utxo.outpoint = input.previousOutput

-- The removal loop leaves exactly the outpoints no UTXO of the list has.
theorem remove_loop (utxos : List Utxo) (outpoints : List OutPoint) :
    utxos.foldl (fun txOutpoints utxo => txOutpoints.filter (· ≠ utxo.outpoint)) outpoints =
      outpoints.filter fun o => o ∉ utxos.map Utxo.outpoint := by
  induction utxos generalizing outpoints with
  | nil => simp
  | cons utxo rest ih =>
    rw [List.foldl_cons, ih, List.filter_filter]
    congr 1; funext o
    simp only [List.map_cons, List.mem_cons, not_or, Bool.decide_and]
    exact Bool.and_comm _ _

theorem remaining_empty_iff (tx : Transaction) (u : UtxoData) :
    (u.utxos.foldl (fun txOutpoints utxo => txOutpoints.filter (· ≠ utxo.outpoint))
      (tx.input.map (·.previousOutput))).isEmpty ↔ Covered tx u := by
  rw [remove_loop, List.isEmpty_iff, List.filter_eq_nil_iff]
  simp [Covered]

theorem utxoCheck_ok_iff (tx : Transaction) (utxoData : Option UtxoData) :
    utxoCheck tx utxoData = .ok () ↔ ∃ u, utxoData = some u ∧ Covered tx u := by
  cases utxoData with
  | none => simp [utxoCheck]
  | some u =>
    simp only [Option.some.injEq, exists_eq_left', ← remaining_empty_iff, utxoCheck]
    split <;> simp_all

theorem utxoCheck_error (tx : Transaction) (utxoData : Option UtxoData) (failed : utxoCheck tx utxoData ≠ .ok ()) :
    ∃ text, utxoCheck tx utxoData = .error (.utxoCheckFailed text) := by
  cases utxoData with
  | none => exact ⟨_,rfl⟩
  | some u =>
    simp only [utxoCheck] at failed ⊢
    split
    · simp_all
    · exact ⟨_,rfl⟩

-- A covered draft gets past the check: CheckOutpoints is the first message SendTx sends, and
-- it returns unless the wallet's broadcast reply is lost.
theorem sendTx_passes_check (lib : Lib) {w : World} {req : SendTxReq} (ans : SendTxAnswers) {created : CreatedTx}
    (found : w.data.createdTxs.get? req.txid = some created) {u : UtxoData} (loaded : w.data.utxoData = some u)
    (covered : Covered created.tx u) (answered : ans.walletBroadcast ≠ .recvFailed) :
    ∃ w' r, sendTx lib w req ans = some (w',r) ∧
      w.sent ++ [⟨.server (.checkOutpoints (created.tx.input.map (·.previousOutput))),w.data,w.db⟩] <+: w'.sent := by
  have passed := (utxoCheck_ok_iff created.tx w.data.utxoData).mpr ⟨u,loaded,covered⟩
  rcases ans with ⟨_ | _,_,_ | _ | _⟩
  all_goals first | exact absurd rfl answered | simp [sendTx, found, passed, newMonitoredTx, List.prefix_append]

theorem send_tx_checks_wallet_utxos (lib : Lib) (w : World) (req : SendTxReq) (ans : SendTxAnswers)
    (created : CreatedTx) (found : w.data.createdTxs.get? req.txid = some created) :
    (utxoCheck created.tx w.data.utxoData = .ok () ↔ ∃ u, w.data.utxoData = some u ∧ Covered created.tx u) ∧
    (w.data.utxoData = none → sendTx lib w req ans = some (w,.error (.utxoCheckFailed "utxo_data is None"))) ∧
    (utxoCheck created.tx w.data.utxoData ≠ .ok () →
      ∃ text, sendTx lib w req ans = some (w,.error (.utxoCheckFailed text))) ∧
    (∀ u, w.data.utxoData = some u → Covered created.tx u → ans.walletBroadcast ≠ .recvFailed →
      ∃ w' r, sendTx lib w req ans = some (w',r) ∧
        w.sent ++ [⟨.server (.checkOutpoints (created.tx.input.map (·.previousOutput))),w.data,w.db⟩] <+: w'.sent) := by
  refine ⟨utxoCheck_ok_iff _ _,fun none => ?_,fun failed => ?_,
    fun u loaded covered answered => sendTx_passes_check lib ans found loaded covered answered⟩
  · simp [sendTx, found, none, utxoCheck]
  · obtain ⟨text,err⟩ := utxoCheck_error _ _ failed
    exact ⟨text,by simp [sendTx, found, err]⟩

theorem send_tx_checks_wallet_utxos_on_covered_draft :
    let created : CreatedTx := ⟨⟨[⟨⟨3,0⟩⟩],[]⟩,""⟩
    let w := (World.start Db.empty).modify fun d =>
      {d with createdTxs := d.createdTxs.insert 7 created, utxoData := some ⟨[⟨3,0,5,100⟩]⟩}
    let ans : SendTxAnswers := ⟨.ok (),.ok 7,.reply (.ok 7)⟩
    w.data.createdTxs.get? 7 = some created ∧ Covered created.tx ⟨[⟨3,0,5,100⟩]⟩ ∧
    (utxoCheck created.tx w.data.utxoData = .ok () ↔ ∃ u, w.data.utxoData = some u ∧ Covered created.tx u) ∧
    (w.data.utxoData = none →
      sendTx Lib.constant w ⟨7,none⟩ ans = some (w,.error (.utxoCheckFailed "utxo_data is None"))) ∧
    (utxoCheck created.tx w.data.utxoData ≠ .ok () →
      ∃ text, sendTx Lib.constant w ⟨7,none⟩ ans = some (w,.error (.utxoCheckFailed text))) ∧
    (∀ u, w.data.utxoData = some u → Covered created.tx u → ans.walletBroadcast ≠ .recvFailed →
      ∃ w' r, sendTx Lib.constant w ⟨7,none⟩ ans = some (w',r) ∧
        w.sent ++ [⟨.server (.checkOutpoints (created.tx.input.map (·.previousOutput))),w.data,w.db⟩] <+: w'.sent) :=
  ⟨rfl,fun _ member => ⟨_,List.mem_singleton_self _,by rw [List.mem_singleton.mp member]; rfl⟩,
    send_tx_checks_wallet_utxos _ _ ⟨7,none⟩ _ _ rfl⟩

end SideswapManager.UtxoCheck
