import CollectorService.AutoTable
import CollectorService.Ranking
import CollectorService.Steps
import CollectorService.Program
import CollectorService.Search
import CollectorService.Text
import CollectorService.Models
import CollectorService.Database
import CollectorService.SQLiteManager
import CollectorService.Retention
import CollectorService.Atomicity
import CollectorService.ModelFiles
import CollectorService.Command
import CollectorService.CommandParser
import CollectorService.DataTask
import CollectorService.CommandProcessor
import CollectorService.Integrity
import CollectorService.Refusal
import CollectorService.Serializability
import CollectorService.DeviceStatusStore
import CollectorService.Workers
import CollectorService.Coherence
import CollectorService.Json
import CollectorService.Provenance
import CollectorService.AbsentFields
import CollectorService.ArrayValues
import CollectorService.Bodies
import CollectorService.BraceMatching
import CollectorService.Catalogue
import CollectorService.CleanStrings
import CollectorService.Cleanup
import CollectorService.CollectionQueryBuilder
import CollectorService.CollectionResponseParser
import CollectorService.CommandFrame
import CollectorService.CommandLine
import CollectorService.CommandOrder
import CollectorService.CommandText
import CollectorService.CompleteReads
import CollectorService.CycleSleep
import CollectorService.DerivedPoints
import CollectorService.DeviceNames
import CollectorService.DeviceTask
import CollectorService.DeviceView
import CollectorService.Documents
import CollectorService.DriverClient
import CollectorService.Exchange
import CollectorService.FailingCalls
import CollectorService.GivingUp
import CollectorService.Growth
import CollectorService.Hoare
import CollectorService.HttpRouter
import CollectorService.HttpSession
import CollectorService.Isolation
import CollectorService.JsonReading
import CollectorService.JsonUtil
import CollectorService.KeptModels
import CollectorService.LexicalPath
import CollectorService.LineEndings
import CollectorService.LiveDevices
import CollectorService.MockDriverServer
import CollectorService.MockRecords
import CollectorService.ModelItems
import CollectorService.ModelLayout
import CollectorService.ModelPaths
import CollectorService.NameFrame
import CollectorService.NamesInUse
import CollectorService.Numbers
import CollectorService.OnConnection
import CollectorService.OneWorker
import CollectorService.Owners
import CollectorService.Polling
import CollectorService.Pool
import CollectorService.QueryDocument
import CollectorService.QueryRoundTrip
import CollectorService.Quoted
import CollectorService.ReadRoutes
import CollectorService.Readings
import CollectorService.Rename
import CollectorService.ReplacePoints
import CollectorService.Replies
import CollectorService.RequestTarget
import CollectorService.ResourceLog
import CollectorService.Restarts
import CollectorService.ScalarFields
import CollectorService.Schema
import CollectorService.Serializers
import CollectorService.ServedDevices
import CollectorService.ServerLifecycle
import CollectorService.Session
import CollectorService.Shutdown
import CollectorService.Start
import CollectorService.StartAll
import CollectorService.Stop
import CollectorService.TaskRoutes
import CollectorService.Timestamps
import CollectorService.Truncation
import CollectorService.UrlDecoding
import CollectorService.Utf8
import CollectorService.WorkerLoop
import CollectorService.WrittenStrings
