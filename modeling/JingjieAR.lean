import JingjieAR.LoopSemantics
import JingjieAR.IncrementalMachine
import JingjieAR.TransitionRuns
import JingjieAR.ThrowingState
import JingjieAR.OrderedMap
import JingjieAR.BigEndian
import JingjieAR.MutualExclusion
import JingjieAR.PartySums
import JingjieAR.CallbackTasks
import JingjieAR.HttpRequestModel
import JingjieAR.HttpContextModel
import JingjieAR.HttpContextLines
import JingjieAR.HttpContextRun
import JingjieAR.HttpContextChunking
import JingjieAR.HttpContextText
import JingjieAR.HttpContextReturns
import JingjieAR.HttpContextAnswers
import JingjieAR.HttpContextFraming
import JingjieAR.HttpContextErrors
import JingjieAR.HttpContextRoundTrip
import JingjieAR.HttpResponseModel
import JingjieAR.TcpConnectionModel
import JingjieAR.TcpConnectionRegistered
import JingjieAR.TcpConnectionOutput
import JingjieAR.TcpConnectionProgress
import JingjieAR.HttpServerModel
import JingjieAR.HttpServerRounds
import JingjieAR.HttpServerDispatch
import JingjieAR.HttpServerPipelining
import JingjieAR.HttpServerOrder
import JingjieAR.RouterModel
import JingjieAR.HttpDispatcherModel
import JingjieAR.MiddlewarePairing
import JingjieAR.HttpServerAsync
import JingjieAR.SeparatedNames
import JingjieAR.UrlCoding
import JingjieAR.StaticFileModel
import JingjieAR.StaticFileContainment
import JingjieAR.ResponseFraming
import JingjieAR.ResponseOrigins
import JingjieAR.RouterTables
import JingjieAR.ARServerRoutes
import JingjieAR.AuthMiddlewareModel
import JingjieAR.AuthGate
import JingjieAR.CorsMiddlewareModel
import JingjieAR.ServerMiddleware
import JingjieAR.CatalogModel
import JingjieAR.ArtworkIds
import JingjieAR.SessionStoreModel
import JingjieAR.SessionStoreMoves
import JingjieAR.SessionRevocation
import JingjieAR.SessionServiceModel
import JingjieAR.SessionConsistency
import JingjieAR.SessionLogout
import JingjieAR.ViewStatisticsModel
import JingjieAR.ViewCounting
import JingjieAR.VisitorSessionModel
import JingjieAR.VisitorAgreement
import JingjieAR.SessionCodecModel
import JingjieAR.SessionManagerModel
import JingjieAR.SessionDestruction
import JingjieAR.SessionStorages
import JingjieAR.LfuCacheModel
import JingjieAR.LfuLists
import JingjieAR.LfuStructure
import JingjieAR.LfuCalls
import JingjieAR.LfuAccounting
import JingjieAR.HashLfuCache
import JingjieAR.TwoLevelCacheModel
import JingjieAR.SingleFlight
import JingjieAR.ArtworkLeaseModel
import JingjieAR.ArtworkLeases
import JingjieAR.CommentText
import JingjieAR.ArtworkInteractionModel
import JingjieAR.ArtworkInteractions
import JingjieAR.SessionStoreTraces
import JingjieAR.AuthServiceModel
import JingjieAR.AuthLogins
import JingjieAR.ConnectionPoolModel
import JingjieAR.ConnectionPools
import JingjieAR.TaskWorkerPoolModel
import JingjieAR.TaskWorkerPools
import JingjieAR.AsyncLoggingModel
import JingjieAR.AsyncLogs
import JingjieAR.OrderedSet
import JingjieAR.TimerQueueModel
import JingjieAR.TimerQueues
import JingjieAR.EventLoopModel
import JingjieAR.EventLoops
import JingjieAR.EventLoopThreads
import JingjieAR.CacheEntryText
import JingjieAR.CacheTraceModel
import JingjieAR.CacheMarkers
import JingjieAR.CacheCalls
import JingjieAR.RouterCompleteness
import JingjieAR.HttpContextChecked
import JingjieAR.HttpContextLimits
import JingjieAR.MemoryPoolModel
import JingjieAR.MemoryPools
import JingjieAR.CommentPagingModel
import JingjieAR.CommentPaging
import JingjieAR.CommentListModel
import JingjieAR.CommentLists
import JingjieAR.VisitorPresenceModel
import JingjieAR.VisitorPresence
import JingjieAR.SceneSwitchingModel
import JingjieAR.SceneSwitches
import JingjieAR.CatalogRequirements
import JingjieAR.AssetUrls
import JingjieAR.CatalogReads
import JingjieAR.CatalogValidation
import JingjieAR.PythonValueModel
import JingjieAR.MigrationRecordModel
import JingjieAR.MigrationModel
import JingjieAR.MigrationFailures
import JingjieAR.MigrationRequirements
import JingjieAR.MigratedUrls
import JingjieAR.MigratedFiles
import JingjieAR.MigrationRuns
import JingjieAR.RelatedLists
import JingjieAR.MigratedRecords
import JingjieAR.MigratedPages
import JingjieAR.MigratedCatalogs
import JingjieAR.MigratedExhibitions
import JingjieAR.MigratedCubes
import JingjieAR.MigratedAssets
import JingjieAR.Migrations
import JingjieAR.PositionReaders
import JingjieAR.SessionCodec
import JingjieAR.DelimitedFields
import JingjieAR.SessionCacheCodec
import JingjieAR.CacheReplies
import JingjieAR.FinmapInsertions
import JingjieAR.QueryStrings
import JingjieAR.BufferModel
import JingjieAR.Buffers
import JingjieAR.EcmaScript
import JingjieAR.RouterExpressions
import JingjieAR.ByteRanges
import JingjieAR.HttpDateModel
import JingjieAR.HttpDates
import JingjieAR.ConditionalRequests
import JingjieAR.StaticFileAddresses
import JingjieAR.LinkedChains
import JingjieAR.SlotMemoryModel
import JingjieAR.SlotMemories
import JingjieAR.SortedSets
import JingjieAR.PresenceModel
import JingjieAR.PresenceCounts
import JingjieAR.CorsGrants
import JingjieAR.CorsCaching
import JingjieAR.JsonTexts
import JingjieAR.JsonReplies
import JingjieAR.VrEntryModel
import JingjieAR.VrEntries
import JingjieAR.GyroModel
import JingjieAR.GyroConvergence
import JingjieAR.StringLiterals
import JingjieAR.PanoDataModel
import JingjieAR.PanoStrings
import JingjieAR.PanoTokens
import JingjieAR.PanoRoundTrips
import JingjieAR.XmlTexts
import JingjieAR.XmlPrinting
import JingjieAR.SceneXmlModel
import JingjieAR.SceneXmlTrees
import JingjieAR.SceneXmlTexts
import JingjieAR.LogStreamModel
import JingjieAR.LogIntegers
import JingjieAR.EPollPollerModel
import JingjieAR.EPollPollers
import JingjieAR.TcpServerModel
import JingjieAR.TcpServerNames
import JingjieAR.TcpServers
import JingjieAR.TcpServerStages
import JingjieAR.TcpServerSteps
import JingjieAR.TcpServerRuns
import JingjieAR.TcpServerLifecycle
import JingjieAR.TcpServerSettling
import JingjieAR.InteractionTables
import JingjieAR.LogFileModel
import JingjieAR.LogFileTimes
import JingjieAR.LoggingThreads
import JingjieAR.StaticFileCaching
import JingjieAR.VisitorHandlers
import JingjieAR.VisitorPageStarts
