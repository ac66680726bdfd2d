import Courier.Marker
import Courier.Storage.Error
import Courier.Stream.Message

/-!
# Errors of workers

A worker fails when one of its collaborators does; what is said names the collaborator first.
-/

namespace Courier

inductive WorkerError
  | storage (e : StorageError)
  | broker (e : Stream.BrokerError)
  | markers (e : Marker.StoreError)
  deriving DecidableEq, Repr

def WorkerError.message : WorkerError → String
  | storage e => "仓库错误: " ++ e.message
  | broker e => "消息流错误: " ++ e.message
  | markers e => "去重存储错误: " ++ e.message

end Courier
