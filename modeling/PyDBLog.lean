import PyDBLog.Bytes.BigEndian
import PyDBLog.Bytes.Hex
import PyDBLog.Time.Calendar
import PyDBLog.Sql.Slots
import PyDBLog.Sql.Statement
import PyDBLog.Sql.Text
import PyDBLog.Sql.Meaning
import PyDBLog.Replay.Basic
import PyDBLog.Replay.Cut
import PyDBLog.Replay.Dump
import PyDBLog.Replay.Sorted
import PyDBLog.Paging.Ranks
import PyDBLog.Model.Python
import PyDBLog.Model.Frame
import PyDBLog.Model.Types
import PyDBLog.Model.Connector
import PyDBLog.Model.DBLog
import PyDBLog.Model.Saved
import PyDBLog.Model.Returns
import PyDBLog.Model.Worlds
import PyDBLog.Model.Raises
import PyDBLog.Model.Guarded
import PyDBLog.Model.Links
import PyDBLog.Mssql.Schema
import PyDBLog.Mssql.Connector
import PyDBLog.Mssql.Capture
import PyDBLog.Mssql.Lsn
import PyDBLog.Mssql.Superseding
import PyDBLog.Mssql.OneSchema
import PyDBLog.Mssql.Refresh
import PyDBLog.Mssql.Temporal
import PyDBLog.Mssql.ReadTable
import PyDBLog.Mssql.Texts
import PyDBLog.Mssql.Identifiers
import PyDBLog.Mssql.Questions
import PyDBLog.Mssql.Ranges
import PyDBLog.Mssql.Polling
import PyDBLog.Mssql.Driver
import PyDBLog.Mssql.Handles
import PyDBLog.Mssql.Unseen
import PyDBLog.Mssql.Conform
import PyDBLog.Mssql.Catalogue
import PyDBLog.World.Log
import PyDBLog.World.Promises
import PyDBLog.World.InMemory
import PyDBLog.Mssql.Server
import PyDBLog.Mssql.InMemory
import PyDBLog.Mssql.Answering
import PyDBLog.Runs.Window
import PyDBLog.Runs.Calls
import PyDBLog.Runs.Tiles
import PyDBLog.Runs.Page
import PyDBLog.Runs.Walk
import PyDBLog.Runs.Progress
import PyDBLog.Runs.CaughtUp
import PyDBLog.Runs.Refines
import PyDBLog.Runs.Consumer
import PyDBLog.Runs.Dated
import PyDBLog.Runs.Reconstructs
import PyDBLog.Runs.Recovery
import PyDBLog.Runs.Retries
import PyDBLog.Runs.OnServer
import PyDBLog.Runs.Sessions
import PyDBLog.Runs.Inspections
import PyDBLog.Runs.LoopOnServer
import PyDBLog.Runs.Shared
import PyDBLog.Runs.Handover
import PyDBLog.Runs.Backfill
import PyDBLog.Runs.Settles
import PyDBLog.Runs.Positioned
import PyDBLog.Runs.Stacked
import PyDBLog.Runs.Widths
