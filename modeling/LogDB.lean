import LogDB.Lib.Run
import LogDB.Lib.Bytes
import LogDB.Lib.Map
import LogDB.Lib.Decoder
import LogDB.Lib.Chain
import LogDB.Applier.Config
import LogDB.Applier.Page
import LogDB.Applier.BufferPool
import LogDB.Applier.Utility
import LogDB.Applier.LogApply
import LogDB.Client.CatcherFilter
import LogDB.Applier.ApplyIndex
import LogDB.Applier.Scheduler
import LogDB.Applier.LogWriter
import LogDB.Applier.RecordParse
import LogDB.Applier.RecordLocality
import LogDB.Applier.LogParse
import LogDB.Applier.IndexPage
import LogDB.Applier.RecordApply
import LogDB.Applier.RecordInsert
import LogDB.Applier.PageReorganize
import LogDB.Applier.RecordCopy
import LogDB.Applier.RecordLink
import LogDB.Applier.Replay
import LogDB.Applier.RecordDelete
import LogDB.Applier.PageFrame
import LogDB.Applier.SlotDirectory
import LogDB.Applier.PageInvariant
import LogDB.Applier.DeleteRec
import LogDB.Applier.PageCreate
import LogDB.Applier.ListDelete
